import RpiDrivers.Vchiq.Requests

/-!
# Every request is completed once

`RequestState.owners` counts where a request is: completed, in a queue, or owned by a thread. A
request received is in one place, so it is completed at most once, never while it is queued, and
it is not lost.

- `CompletedOnce`: the property, of a state of the driver.
- `RequestsOrderly`: the condition on a step.
- `completedOnce_of_orderly`: **runs that keep to it complete every request once**.
- `completed_twice`: a `DEQUEUE_MESSAGE` with too small a buffer is completed twice.
-/

namespace RpiDrivers.Vchiq.Ioctl

open RpiDrivers.Lib

/-! ## The property -/

/-- A request received is completed at most once, and neither while it is in a queue nor while a
thread owns it; until then it is in a queue or owned by a thread. -/
structure CompletedOnce (s : RequestState) : Prop where
  once : ∀ id, s.completed.count id ≤ 1
  queued : ∀ e ∈ s.queued, e.2.id ∉ s.completed
  owned : ∀ task ∈ s.tasks, ∀ request ∈ task.owned, request.id ∉ s.completed
  accounted : ∀ id < s.received, id ∈ s.completed ∨ (∃ e ∈ s.queued, e.2.id = id) ∨
    ∃ task ∈ s.tasks, ∃ request ∈ task.owned, request.id = id

/-! ## The condition -/

/-- The next request of a queue can be taken, and has the buffers that are needed. -/
def NextFits (s : RequestState) (file : Nat) (queue : FileQueue) (o : Outcomes)
    (fits : Request → Prop) : Prop :=
  o.retrieve = true ∧ ∀ request queued,
    s.queued.retrieveNext (file, queue) = some (request, queued) → o.mapped = true ∧ fits request

/-- The buffers of an `AWAIT_COMPLETION` are large enough. -/
def AwaitFits (pointerSize : Nat) (request : Request) : Prop :=
  sizeofTotal ≤ request.outputBufferLength ∧
    sizeofAwaitCompletion pointerSize ≤ request.inputBufferLength

/-- The buffers of a `DEQUEUE_MESSAGE` are large enough, also for the next message. -/
def DequeueFits (pointerSize : Nat) (msgs : List Msg) (request : Request) : Prop :=
  sizeofTotal ≤ request.outputBufferLength ∧
    sizeofDequeueMessage pointerSize ≤ request.inputBufferLength ∧
    ∀ msg ∈ msgs.head?, msg.pendingMsgSize ≤ request.bufSize

/-- The condition on a step of a thread. -/
def FileTask.Orderly (pointerSize : Nat) (s : RequestState) (file : Nat) (context : FileContext)
    (o : Outcomes) : FileTask → Prop
  -- no message is sent for a request whose queue is NULL
  | .dispatchMessage none _ => o.send = false
  -- an ioctl that has forwarded its request takes one that fits
  | .processPendingMsg caller => caller ≠ .rx → context.pendingDataMsgList ≠ [] →
    NextFits s file .pendingMsg o (AwaitFits pointerSize)
  | .processPendingVchiMsg caller =>
    caller ≠ .removePendingMsg .rx → context.pendingVchiMsgList ≠ [] →
    NextFits s file .pendingVchiMsg o (DequeueFits pointerSize context.pendingVchiMsgList)
  -- a request that is not completed can be queued again, unless it is the ioctl's own
  | .removedPendingMsg caller request totalMsg =>
    totalMsg = 0 → o.requeue = true ∨ caller = .awaitCompletion request
  | _ => True

/-- **The condition**: a request that an ioctl finds in a queue has buffers of the right size,
queues are there and do not refuse. -/
def RequestsOrderly (pointerSize : Nat) (s : RequestState) : RequestAction → Prop
  | .run (.inFile file task) o =>
    ∀ context, s.files file = some context → task.Orderly pointerSize s file context o
  | _ => True

/-! ## Where a request is -/

/-- One for the request with this number. -/
def one (id : Nat) (request : Request) : Nat :=
  if request.id = id then 1 else 0

/-- The number of places in which a request is. -/
def RequestState.owners (s : RequestState) (id : Nat) : Nat :=
  s.completed.count id + s.queued.weight (one id) +
    total (fun task => total (one id) task.owned) s.tasks

/-- **The ledger**: a request received is in one place, any other in none. -/
def Ledger (s : RequestState) : Prop :=
  ∀ id, s.owners id = if id < s.received then 1 else 0

/-- A step after which every request is in as many places as before. -/
structure Keeps (s s' : RequestState) : Prop where
  received : s'.received = s.received
  owners : ∀ id, s'.owners id = s.owners id

theorem Ledger.keeps {s s' : RequestState} (h : Ledger s) (hk : Keeps s s') : Ledger s' := by
  intro id
  rw [hk.owners, hk.received]
  exact h id

/-- **A ledger in order** is what the property says. -/
theorem Ledger.completedOnce {s : RequestState} (h : Ledger s) : CompletedOnce s := by
  have hone : ∀ id, s.owners id ≤ 1 := fun id => by
    rw [h id]
    split <;> omega
  have hcompleted : ∀ id ∈ s.completed, 0 < s.completed.count id := fun id =>
    List.count_pos_iff.2
  refine ⟨fun id => ?_, fun e he hmem => ?_, fun task ht request hr hmem => ?_, fun id hid => ?_⟩
  · have := hone id
    simp only [RequestState.owners] at this
    omega
  · have hle := le_total (fun e : (Nat × FileQueue) × Request => one e.2.id e.2) he
    have := le_total (fun e' : (Nat × FileQueue) × Request => one e.2.id e'.2) he
    have hpos := hcompleted _ hmem
    have hsum := hone e.2.id
    simp only [RequestState.owners, ManualQueues.weight] at hsum
    simp only [one, if_true] at this hsum
    omega
  · have hin := le_total (one request.id) hr
    have hout := le_total (fun task : Task => total (one request.id) task.owned) ht
    have hpos := hcompleted _ hmem
    have hsum := hone request.id
    simp only [RequestState.owners] at hsum
    have hself : one request.id request = 1 := if_pos rfl
    omega
  · have hsum := h id
    rw [if_pos hid] at hsum
    by_cases hc : id ∈ s.completed
    · exact .inl hc
    · have hzero := List.count_eq_zero.2 hc
      by_cases hq : 0 < s.queued.weight (one id)
      · obtain ⟨e, he, hpos⟩ := exists_of_total_pos hq
        refine .inr (.inl ⟨e, he, ?_⟩)
        by_contra hne
        simp [one, hne] at hpos
      · have ht : 0 < total (fun task : Task => total (one id) task.owned) s.tasks := by
          simp only [RequestState.owners] at hsum
          omega
        obtain ⟨task, hmem, hpos⟩ := exists_of_total_pos ht
        obtain ⟨request, hr, hpos⟩ := exists_of_total_pos hpos
        refine .inr (.inr ⟨task, hmem, request, hr, ?_⟩)
        by_contra hne
        simp [one, hne] at hpos

/-! ## What the operations do to the ledger -/

section Owners

variable (s : RequestState) (id : Nat)

@[simp] theorem owners_complete (request : Request) :
    (s.complete request).owners id = s.owners id + one id request := by
  simp only [RequestState.owners, RequestState.complete, List.count_append, List.count_singleton,
    one, beq_iff_eq]
  omega

@[simp] theorem owners_setFile (file : Nat) (context : FileContext) :
    (s.setFile file context).owners id = s.owners id := rfl

theorem owners_setQueued (queued : ManualQueues (Nat × FileQueue) Request) :
    (s.setQueued queued).owners id + s.queued.weight (one id) =
      s.owners id + queued.weight (one id) := by
  simp only [RequestState.owners, RequestState.setQueued]
  omega

/-- A request is put into a queue. -/
@[simp] theorem owners_forward (queue : Nat × FileQueue) (request : Request) :
    (s.setQueued (s.queued.forward queue request)).owners id =
      s.owners id + one id request := by
  have := owners_setQueued s id (s.queued.forward queue request)
  rw [ManualQueues.weight_forward] at this
  omega

@[simp] theorem owners_requeue (queue : Nat × FileQueue) (request : Request) :
    (s.setQueued (s.queued.requeue queue request)).owners id =
      s.owners id + one id request := by
  have := owners_setQueued s id (s.queued.requeue queue request)
  rw [ManualQueues.weight_requeue] at this
  omega

variable {s} in
/-- A request is taken from a queue. -/
theorem owners_retrieve {p : (Nat × FileQueue) × Request → Bool} {request : Request}
    {queued : ManualQueues (Nat × FileQueue) Request}
    (h : s.queued.retrieve p = some (request, queued)) :
    (s.setQueued queued).owners id + one id request = s.owners id := by
  have := owners_setQueued s id queued
  rw [ManualQueues.weight_retrieve _ h] at this
  omega

/-- A queue that is purged. -/
@[simp] theorem owners_purge (file : Nat) (queue : FileQueue) :
    (s.purge file queue).owners id = s.owners id := by
  have hcount : ∀ requests : List Request,
      (requests.map Request.id).count id = total (one id) requests := by
    intro requests
    induction requests with
    | nil => rfl
    | cons request requests ih =>
      simp only [List.map_cons, List.count_cons, ih, total_cons, one, beq_iff_eq]
      omega
  have hweight := ManualQueues.weight_purge (one id) (file, queue) s.queued
  simp only [RequestState.owners, RequestState.purge, List.count_append, hcount]
  omega

variable {s} in
/-- A thread that goes on owns other requests than before. -/
theorem owners_advance {task : Task} (h : task ∈ s.tasks) (rest : List Task) :
    (s.advance task rest).owners id + total (one id) task.owned =
      s.owners id + total (fun task => total (one id) task.owned) rest := by
  have := sum_advance (fun task : Task => total (one id) task.owned) h rest
  simp only [RequestState.owners, RequestState.advance]
  omega

variable {s} in
theorem owners_advanceFile {file : Nat} {task : FileTask} (h : .inFile file task ∈ s.tasks)
    (rest : List FileTask) :
    (s.advanceFile file task rest).owners id + total (one id) task.owned =
      s.owners id + total (fun task => total (one id) task.owned) rest := by
  have := owners_advance id h (rest.map (.inFile file))
  simp only [total, List.map_map] at this ⊢
  exact this

end Owners

/-! ## Steps of an ioctl -/

variable {pointerSize : Nat} {s s' : RequestState} {file : Nat} {context : FileContext}
  {o : Outcomes}

/-- The request that is dispatched is completed. -/
theorem keeps_completeRequest {request : Request} (h : .ioDeviceControl request ∈ s.tasks) :
    Keeps s ((s.advance (.ioDeviceControl request) []).complete request) := by
  refine ⟨rfl, fun id => ?_⟩
  have := owners_advance id h []
  simp only [Task.owned, total_cons, total_nil] at this
  rw [owners_complete]
  omega

theorem keeps_forwardToIoQueue {queue : FileQueue} {request : Request} {rest : FileTask}
    (h : .ioDeviceControl request ∈ s.tasks) (hrest : rest.owned = [])
    (hs : forwardToIoQueue s file context queue request o rest = some s') : Keeps s s' := by
  unfold forwardToIoQueue at hs
  split at hs
  · split at hs
    · obtain rfl := Option.some.inj hs
      refine ⟨rfl, fun id => ?_⟩
      have := owners_advance (s := s.setQueued (s.queued.forward (file, queue) request)) id h
        [.inFile file rest]
      simp only [owners_forward, Task.owned, hrest, total_cons, total_nil] at this
      omega
    · obtain rfl := Option.some.inj hs
      exact keeps_completeRequest h
  · cases hs

/-- **What is done with a request** keeps it in one place. -/
theorem keeps_dispose {request : Request} {disposition : Disposition}
    (h : .ioDeviceControl request ∈ s.tasks)
    (hs : dispose s file context request o disposition = some s') : Keeps s s' := by
  cases disposition with
  | completeRequest =>
    obtain rfl := Option.some.inj hs
    exact keeps_completeRequest h
  | shutdown =>
    simp only [dispose] at hs
    split at hs
    · obtain rfl := Option.some.inj hs
      refine ⟨rfl, fun id => ?_⟩
      have := (keeps_completeRequest h).owners id
      rw [owners_complete] at this
      rw [owners_complete, owners_purge]
      exact this
    · cases hs
  | updateQueueDispatchMessage queue =>
    simp only [dispose] at hs
    split at hs
    · exact keeps_forwardToIoQueue h rfl hs
    · obtain rfl := Option.some.inj hs
      refine ⟨rfl, fun id => ?_⟩
      have := owners_advance id h [.inFile file (.dispatchMessage none request)]
      simp only [Task.owned, FileTask.owned, total_cons, total_nil] at this
      omega
  | processBulkTransfer queue => exact keeps_forwardToIoQueue h rfl hs
  | awaitCompletion => exact keeps_forwardToIoQueue h rfl hs
  | dequeueMessage =>
    obtain rfl := Option.some.inj hs
    refine ⟨rfl, fun id => ?_⟩
    have := owners_advance id h [.inFile file (.dequeueMessage request)]
    simp only [Task.owned, FileTask.owned, total_cons, total_nil] at this
    omega

theorem keeps_ioDeviceControl {request : Request} (h : .ioDeviceControl request ∈ s.tasks)
    (hs : ioDeviceControl pointerSize s request o = some s') : Keeps s s' := by
  unfold ioDeviceControl at hs
  split at hs
  · obtain rfl := Option.some.inj hs
    exact keeps_completeRequest h
  · next file hfile =>
    split at hs
    · next context disposition hd =>
      have hk := keeps_dispose (s := s.setFile file context) h hs
      exact ⟨hk.received, hk.owners⟩
    · obtain rfl := Option.some.inj hs
      exact keeps_completeRequest h

/-! ## Pending messages -/

/-- A return that makes no ioctl complete its request. -/
theorem keeps_returnFromPendingMsg {caller : MsgCaller} {success : Bool}
    (h : success = true ∨ caller = .rx) :
    Keeps s (returnFromPendingMsg s file context caller success) := by
  unfold returnFromPendingMsg
  split
  · exact ⟨rfl, fun id => rfl⟩
  · obtain rfl : success = true := h.resolve_right (by simp)
    exact ⟨rfl, fun id => rfl⟩

theorem keeps_returnFromPendingVchiMsg {caller : VchiCaller} {success : Bool}
    (h : success = true ∨ caller = .removePendingMsg .rx) :
    Keeps s (returnFromPendingVchiMsg s file context caller success) := by
  unfold returnFromPendingVchiMsg
  split
  · exact keeps_returnFromPendingMsg (h.imp_right VchiCaller.removePendingMsg.inj)
  · obtain rfl : success = true := h.resolve_right (by simp)
    exact ⟨rfl, fun id => rfl⟩

theorem Keeps.trans {s'' : RequestState} (h : Keeps s s') (h' : Keeps s' s'') : Keeps s s'' :=
  ⟨h'.received.trans h.received, fun id => (h'.owners id).trans (h.owners id)⟩

/-- A thread that owns nothing goes on with nothing. -/
theorem keeps_advanceFile {task : FileTask} {rest : List FileTask}
    (h : .inFile file task ∈ s.tasks)
    (howned : ∀ id, total (fun task => total (one id) task.owned) rest =
      total (one id) task.owned) : Keeps s (s.advanceFile file task rest) := by
  refine ⟨rfl, fun id => ?_⟩
  have := owners_advanceFile id h rest
  rw [howned id] at this
  omega

/-- A thread that owns nothing goes on, in a file that has changed. -/
theorem keeps_setFile_advanceFile {task : FileTask} {rest : List FileTask} {context' : FileContext}
    (h : .inFile file task ∈ s.tasks)
    (howned : ∀ id, total (fun task => total (one id) task.owned) rest =
      total (one id) task.owned) :
    Keeps s ((s.setFile file context').advanceFile file task rest) := by
  have hfile : Keeps s (s.setFile file context') := ⟨rfl, fun _ => rfl⟩
  exact hfile.trans (keeps_advanceFile h howned)

/-- The request of a `NextFits` queue is the one it is about. -/
theorem NextFits.fits {queue : FileQueue} {fits : Request → Prop} {request : Request}
    {queued : ManualQueues (Nat × FileQueue) Request} (h : NextFits s file queue o fits)
    (hnext : s.queued.retrieveNext (file, queue) = some (request, queued)) :
    o.mapped = true ∧ fits request :=
  h.2 request queued hnext

theorem awaitBuffers_of_fits {request : Request} (hmapped : o.mapped = true)
    (h : AwaitFits pointerSize request) : awaitBuffers pointerSize request o = true := by
  simp [awaitBuffers, hmapped, h.1, h.2]

theorem vchiqRemovePendingVchiMsg_of_fits {msgs : List Msg} {request : Request}
    (hmapped : o.mapped = true) (hmsgs : msgs ≠ []) (h : DequeueFits pointerSize msgs request) :
    (vchiqRemovePendingVchiMsg pointerSize msgs request o).2 = true := by
  obtain ⟨hout, hin, hsize⟩ := h
  cases msgs with
  | nil => exact absurd rfl hmsgs
  | cons msg msgs =>
    have := hsize msg rfl
    simp [vchiqRemovePendingVchiMsg, hmapped, Nat.not_lt.2 hout, Nat.not_lt.2 hin,
      Nat.not_lt.2 this]

/-- **`VchiqProcessPendingMsg`** takes a request from the queue and completes it, or goes on
with it. -/
theorem keeps_processPendingMsg {caller : MsgCaller}
    (h : .inFile file (.processPendingMsg caller) ∈ s.tasks)
    (hok : (FileTask.processPendingMsg caller).Orderly pointerSize s file context o) :
    Keeps s (processPendingMsg pointerSize s file context caller o) := by
  have hnone : Keeps s (s.advanceFile file (.processPendingMsg caller) []) :=
    keeps_advanceFile h fun _ => rfl
  unfold processPendingMsg
  split
  · exact hnone.trans (keeps_returnFromPendingMsg (.inl rfl))
  · next hlist =>
    have hfits : caller = .rx ∨ NextFits s file .pendingMsg o (AwaitFits pointerSize) := by
      by_cases hrx : caller = .rx
      · exact .inl hrx
      · exact .inr (hok hrx hlist)
    split
    · next hretrieve =>
      refine hnone.trans (keeps_returnFromPendingMsg (.inr (hfits.resolve_right fun hf => ?_)))
      simp [hf.1] at hretrieve
    · split
      · exact hnone.trans (keeps_returnFromPendingMsg (.inl rfl))
      · next request queued hnext =>
        split
        · -- the thread owns the request now
          refine ⟨rfl, fun id => ?_⟩
          have := owners_advanceFile (s := s.setQueued queued) id h
            [.removePendingMsg caller request 0]
          have := owners_retrieve id hnext
          simp only [FileTask.owned, total_cons, total_nil] at *
          omega
        · next hbuffers =>
          have htaken : Keeps s ((s.setQueued queued).complete request) :=
            ⟨rfl, fun id => by rw [owners_complete, owners_retrieve id hnext]⟩
          have hdone : Keeps _ (((s.setQueued queued).complete request).advanceFile file
            (.processPendingMsg caller) []) := keeps_advanceFile h fun _ => rfl
          refine (htaken.trans hdone).trans
            (keeps_returnFromPendingMsg (.inr (hfits.resolve_right fun hf => ?_)))
          obtain ⟨hmapped, hf⟩ := hf.fits hnext
          exact hbuffers (awaitBuffers_of_fits hmapped hf)

theorem keeps_removePendingMsg {caller : MsgCaller} {request : Request} {totalMsg : Nat}
    (h : .inFile file (.removePendingMsg caller request totalMsg) ∈ s.tasks)
    (hs : removePendingMsg s file context caller request totalMsg o = some s') :
    Keeps s s' := by
  have howned : ∀ (c : Prop) [Decidable c] (totalMsg : Nat),
      (if c then FileTask.removePendingMsg caller request totalMsg
        else .removedPendingMsg caller request totalMsg).owned = [request] := by
    intro c _ totalMsg
    split <;> rfl
  unfold removePendingMsg at hs
  split at hs
  · obtain rfl := Option.some.inj hs
    exact keeps_advanceFile h fun _ => rfl
  · split at hs
    · obtain rfl := Option.some.inj hs
      exact keeps_advanceFile h fun _ => rfl
    · simp only at hs
      split at hs
      · cases hs
      · obtain rfl := Option.some.inj hs
        refine keeps_setFile_advanceFile h fun id => ?_
        rw [total_cons, howned]
        rfl

/-- **The end of `VchiqRemovePendingMsg`**: the request is completed or queued again. -/
theorem keeps_removedPendingMsg {caller : MsgCaller} {request : Request} {totalMsg : Nat}
    (h : .inFile file (.removedPendingMsg caller request totalMsg) ∈ s.tasks)
    (hok : (FileTask.removedPendingMsg caller request totalMsg).Orderly pointerSize s file
      context o) :
    Keeps s (removedPendingMsg s file context caller request totalMsg o) := by
  have hdone := fun id => owners_advanceFile id h []
  simp only [FileTask.owned, total_cons, total_nil] at hdone
  unfold removedPendingMsg
  split
  · next hzero =>
    split
    · have hqueued : Keeps s
          ((s.setQueued (s.queued.requeue (file, .pendingMsg) request)).advanceFile file
            (.removedPendingMsg caller request totalMsg) []) := by
        refine ⟨rfl, fun id => ?_⟩
        have := owners_advanceFile
          (s := s.setQueued (s.queued.requeue (file, .pendingMsg) request)) id h []
        simp only [FileTask.owned, total_cons, total_nil, owners_requeue] at this
        omega
      exact hqueued.trans (keeps_returnFromPendingMsg (.inl rfl))
    · next hrequeue =>
      -- the ioctl completes the request that is its own
      obtain rfl := (hok hzero).resolve_left hrequeue
      refine ⟨rfl, fun id => ?_⟩
      have := hdone id
      simp only [returnFromPendingMsg, returnTo, Bool.false_eq_true, if_false, owners_complete,
        owners_setFile]
      omega
  · refine ⟨rfl, fun id => ?_⟩
    have := owners_advanceFile (s := s.complete request) id h [.completedPendingMsg caller]
    simp only [FileTask.owned, total_cons, total_nil, owners_complete] at this ⊢
    omega

/-- **`VchiqProcessPendingVchiMsg`** completes the requests that it takes from the queue. -/
theorem keeps_processPendingVchiMsg {caller : VchiCaller}
    (h : .inFile file (.processPendingVchiMsg caller) ∈ s.tasks)
    (hok : (FileTask.processPendingVchiMsg caller).Orderly pointerSize s file context o) :
    Keeps s (processPendingVchiMsg pointerSize s file context caller o) := by
  have hnone : Keeps s (s.advanceFile file (.processPendingVchiMsg caller) []) :=
    keeps_advanceFile h fun _ => rfl
  unfold processPendingVchiMsg
  split
  · exact hnone.trans (keeps_returnFromPendingVchiMsg (.inl rfl))
  · next hlist =>
    have hfits : caller = .removePendingMsg .rx ∨ NextFits s file .pendingVchiMsg o
        (DequeueFits pointerSize context.pendingVchiMsgList) := by
      by_cases hrx : caller = .removePendingMsg .rx
      · exact .inl hrx
      · exact .inr (hok hrx hlist)
    split
    · next hretrieve =>
      refine hnone.trans
        (keeps_returnFromPendingVchiMsg (.inr (hfits.resolve_right fun hf => ?_)))
      simp [hf.1] at hretrieve
    · split
      · exact hnone.trans (keeps_returnFromPendingVchiMsg (.inl rfl))
      · next request queued hnext =>
        have htaken : Keeps s ((s.setQueued queued).complete request) :=
          ⟨rfl, fun id => by rw [owners_complete, owners_retrieve id hnext]⟩
        split
        · exact htaken.trans ⟨rfl, fun id => rfl⟩
        · next hfailed =>
          have hdone : Keeps _ (((s.setQueued queued).complete request).advanceFile file
            (.processPendingVchiMsg caller) []) := keeps_advanceFile h fun _ => rfl
          refine (htaken.trans hdone).trans
            (keeps_returnFromPendingVchiMsg (.inr (hfits.resolve_right fun hf => ?_)))
          obtain ⟨hmapped, hf⟩ := hf.fits hnext
          have := vchiqRemovePendingVchiMsg_of_fits hmapped hlist hf
          simp [hfailed] at this

/-! ## Any step -/

/-- A thread completes the request that it owns. -/
theorem keeps_complete_owned {task : FileTask} {request : Request}
    (h : .inFile file task ∈ s.tasks) (howned : task.owned = [request]) :
    Keeps s ((s.advanceFile file task []).complete request) := by
  refine ⟨rfl, fun id => ?_⟩
  have := owners_advanceFile id h []
  simp only [howned, total_cons, total_nil] at this
  rw [owners_complete]
  omega

theorem keeps_dequeueMessage {request : Request}
    (h : .inFile file (.dequeueMessage request) ∈ s.tasks)
    (hs : dequeueMessage s file context request o = some s') : Keeps s s' := by
  unfold dequeueMessage at hs
  split at hs
  · obtain rfl := Option.some.inj hs
    exact keeps_complete_owned h rfl
  · split at hs
    · split at hs
      · obtain rfl := Option.some.inj hs
        refine ⟨rfl, fun id => ?_⟩
        have := owners_advanceFile
          (s := (s.setQueued (s.queued.forward (file, .pendingVchiMsg) request)).setFile file
            { context with pendingVchiMsgMutex := true }) id h
          [.processPendingVchiMsg (.dequeueMessage request)]
        simp only [FileTask.owned, total_cons, total_nil, owners_setFile, owners_forward] at this ⊢
        omega
      · obtain rfl := Option.some.inj hs
        exact keeps_complete_owned h rfl
    · cases hs

/-- **One step of a thread**, a case for each kind. -/
theorem keeps_runTask {task : FileTask} (h : .inFile file task ∈ s.tasks)
    (hok : task.Orderly pointerSize s file context o)
    (hs : runTask pointerSize s file context o task = some s') : Keeps s s' := by
  cases task with
  | dispatchMessage queue request =>
    simp only [runTask] at hs
    split at hs
    · next hsend =>
      obtain rfl := Option.some.inj hs
      cases queue with
      | none => exact absurd (hok.symm.trans hsend) (by simp)
      | some queue => exact keeps_advanceFile h fun _ => rfl
    · split at hs
      · obtain rfl := Option.some.inj hs
        exact keeps_complete_owned h rfl
      · obtain rfl := Option.some.inj hs
        exact keeps_advanceFile h fun _ => rfl
  | notSent queue request =>
    simp only [runTask] at hs
    split at hs
    · obtain rfl := Option.some.inj hs
      exact keeps_advanceFile h fun _ => rfl
    · next request' queued hfound =>
      obtain rfl := Option.some.inj hs
      -- the request that was queued is taken back and completed
      obtain rfl := ManualQueues.retrieveFound_eq hfound
      refine ⟨rfl, fun id => ?_⟩
      have hdone : Keeps (s.setQueued queued) ((s.setQueued queued).advanceFile file _ []) :=
        keeps_advanceFile h fun _ => rfl
      rw [owners_complete, hdone.owners id, owners_retrieve id hfound]
  | awaitCompletion request =>
    simp only [runTask] at hs
    split at hs
    · cases hs
    · obtain rfl := Option.some.inj hs
      exact keeps_setFile_advanceFile h fun _ => rfl
  | dequeueMessage request =>
    simp only [runTask] at hs
    split at hs
    · cases hs
    · exact keeps_dequeueMessage h hs
  | newRxMsg msg =>
    simp only [runTask] at hs
    split at hs
    · cases hs
    · split at hs
      · obtain rfl := Option.some.inj hs
        exact keeps_setFile_advanceFile h fun _ => rfl
      · obtain rfl := Option.some.inj hs
        exact keeps_advanceFile h fun _ => rfl
  | processPendingMsg caller =>
    obtain rfl := Option.some.inj hs
    exact keeps_processPendingMsg h hok
  | removePendingMsg caller request totalMsg => exact keeps_removePendingMsg h hs
  | removedPendingMsg caller request totalMsg =>
    obtain rfl := Option.some.inj hs
    exact keeps_removedPendingMsg h hok
  | completedPendingMsg caller =>
    simp only [runTask] at hs
    split at hs
    · cases hs
    · obtain rfl := Option.some.inj hs
      exact keeps_setFile_advanceFile h fun _ => rfl
  | processPendingVchiMsg caller =>
    obtain rfl := Option.some.inj hs
    exact keeps_processPendingVchiMsg h hok

/-- **A message from VC** completes the request that it takes from a queue. -/
theorem keeps_processRxMsg {rx : RxMsg} (hs : processRxMsg s file context rx o = some s') :
    Keeps s s' := by
  -- what the RX thread goes on with owns nothing
  have hrest : ∀ s : RequestState,
      Keeps s { s with tasks := rx.rest.map (.inFile file) ++ s.tasks } := by
    intro s
    refine ⟨rfl, fun id => ?_⟩
    cases rx <;> simp [RxMsg.rest, RequestState.owners, Task.owned, FileTask.owned]
  unfold processRxMsg at hs
  split at hs
  · split at hs
    · obtain rfl := Option.some.inj hs
      exact ⟨rfl, fun _ => rfl⟩
    · obtain rfl := Option.some.inj hs
      exact hrest s
  · split at hs
    · split at hs
      · split at hs
        · obtain rfl := Option.some.inj hs
          exact ⟨rfl, fun _ => rfl⟩
        · next request queued hnext =>
          obtain rfl := Option.some.inj hs
          have htaken : Keeps s ((s.setQueued queued).complete request) :=
            ⟨rfl, fun id => by rw [owners_complete, owners_retrieve id hnext]⟩
          exact htaken.trans (hrest _)
      · obtain rfl := Option.some.inj hs
        exact ⟨rfl, fun _ => rfl⟩
    · cases hs

/-- A request that is received is in one place, completed or to be dispatched. -/
theorem ledger_inCallerContext (h : Ledger s) (request : Request) (locked enqueued : Bool) :
    Ledger (inCallerContext pointerSize s request locked enqueued) := by
  have howners : ∀ id, (inCallerContext pointerSize s request locked enqueued).owners id =
      s.owners id + one id { request with id := s.received } := by
    intro id
    simp only [inCallerContext]
    split
    · simp only [RequestState.owners, Task.owned, total_cons, total_nil]
      omega
    · exact owners_complete { s with received := s.received + 1 } id _
  have hreceived : (inCallerContext pointerSize s request locked enqueued).received =
      s.received + 1 := by
    simp only [inCallerContext]
    split <;> rfl
  intro id
  rw [howners, hreceived, h id]
  simp only [one]
  grind

/-- **One step** under the condition. -/
theorem Ledger.step {a : RequestAction} (h : Ledger s) (hok : RequestsOrderly pointerSize s a)
    (hs : requestStep pointerSize s a = some s') : Ledger s' := by
  cases a with
  | connected =>
    obtain rfl := Option.some.inj hs
    exact h
  | inCallerContext request locked enqueued =>
    obtain rfl := Option.some.inj hs
    exact ledger_inCallerContext h request locked enqueued
  | run task o =>
    simp only [requestStep] at hs
    split at hs
    · next hmem =>
      split at hs
      · exact h.keeps (keeps_ioDeviceControl hmem hs)
      · next file task =>
        obtain ⟨context, hcontext, hs⟩ := Option.bind_eq_some_iff.1 hs
        exact h.keeps (keeps_runTask hmem (hok context hcontext) hs)
    · cases hs
  | rx file msg o =>
    simp only [requestStep] at hs
    split at hs
    · obtain ⟨context, -, hs⟩ := Option.bind_eq_some_iff.1 hs
      exact h.keeps (keeps_processRxMsg hs)
    · cases hs
  | cancel file queue request =>
    obtain ⟨⟨request', queued⟩, hfound, rfl⟩ := Option.map_eq_some_iff.1 hs
    obtain rfl := ManualQueues.retrieveFound_eq hfound
    exact h.keeps ⟨rfl, fun id => by rw [owners_complete, owners_retrieve id hfound]⟩
  | purge file queue =>
    obtain rfl := Option.some.inj hs
    exact h.keeps ⟨rfl, fun id => owners_purge s id file queue⟩
  | removeAllPendingMsg file =>
    obtain ⟨context, -, hs⟩ := Option.bind_eq_some_iff.1 hs
    split at hs
    · cases hs
    · obtain rfl := Option.some.inj hs
      exact h
  | removeAllPendingVchiMsg file =>
    obtain ⟨context, -, hs⟩ := Option.bind_eq_some_iff.1 hs
    split at hs
    · cases hs
    · obtain rfl := Option.some.inj hs
      exact h

theorem ledger_start : Ledger .start := fun _ => rfl

/-- **Runs that keep to the condition** complete every request once, whatever the ioctls, their
buffers, the messages and the cancellations. -/
theorem completedOnce_of_orderly
    (h : (requestMachine pointerSize).Reach (RequestsOrderly pointerSize) s) : CompletedOnce s :=
  Ledger.completedOnce <| h.inv (by rintro _ rfl; exact ledger_start)
    fun _ _ _ hl hok hs => hl.step hok hs

/-- A request of the file 0, with buffers for every ioctl. -/
def sampleRequest (id : Nat) (code : IoControlCode) (bufSize : Nat) : Request where
  id := id
  fileObject := some 0
  code := code
  inputBufferLength := 64
  outputBufferLength := 4
  isVchi := true
  msgBufSize := 64
  msgBufCount := 1
  blocking := true
  bufSize := bufSize

/-- A service is created, and a message is there when `AWAIT_COMPLETION` is called. -/
theorem completedOnce_of_orderly_await :
    ∃ s, (requestMachine 8).Reach (RequestsOrderly 8) s ∧ CompletedOnce s ∧
      s.completed = [0, 1] := by
  let create := sampleRequest 0 .createService 0
  let await := sampleRequest 1 .awaitCompletion 0
  have h0 : (requestMachine 8).Reach (RequestsOrderly 8) .start := .init rfl
  have h1 := Machine.Reach.step (a := .connected) h0 (by trivial) rfl
  have h2 := Machine.Reach.step (a := .inCallerContext create true true) h1 (by trivial) rfl
  have h3 := Machine.Reach.step (a := .run (.ioDeviceControl create) {}) h2 (by trivial) rfl
  have h4 := Machine.Reach.step
    (a := .run (.inFile 0 (.dispatchMessage (some .createService) create)) {}) h3
    (by rintro _ -; trivial) rfl
  have h5 := Machine.Reach.step (a := .rx 0 .openAck {}) h4 (by trivial) rfl
  have h6 := Machine.Reach.step (a := .rx 0 (.msg ⟨.data, 4⟩) {}) h5 (by trivial) rfl
  have h7 := Machine.Reach.step (a := .run (.inFile 0 (.newRxMsg ⟨.data, 4⟩)) {}) h6
    (by rintro _ -; trivial) rfl
  have h8 := Machine.Reach.step (a := .run (.inFile 0 (.processPendingMsg .rx)) {}) h7
    (by rintro _ - hrx; exact absurd rfl hrx) rfl
  have h9 := Machine.Reach.step (a := .inCallerContext await true true) h8 (by trivial) rfl
  have h10 := Machine.Reach.step (a := .run (.ioDeviceControl await) {}) h9 (by trivial) rfl
  have h11 := Machine.Reach.step (a := .run (.inFile 0 (.awaitCompletion await)) {}) h10
    (by rintro _ -; trivial) rfl
  have h12 := Machine.Reach.step
    (a := .run (.inFile 0 (.processPendingMsg (.awaitCompletion await))) {}) h11
    (by
      rintro _ - - -
      refine ⟨rfl, fun request queued hnext => ⟨rfl, ?_⟩⟩
      obtain ⟨rfl, -⟩ := Prod.mk.inj (Option.some.inj hnext)
      exact ⟨by decide, by decide⟩) rfl
  have h13 := Machine.Reach.step
    (a := .run (.inFile 0 (.removePendingMsg (.awaitCompletion await) await 0)) {}) h12
    (by rintro _ -; trivial) rfl
  have h14 := Machine.Reach.step
    (a := .run (.inFile 0 (.removedPendingMsg (.awaitCompletion await) await 1)) {}) h13
    (by rintro _ - hzero; cases hzero) rfl
  exact ⟨_, h14, completedOnce_of_orderly h14, rfl⟩

/-- A message of 12 bytes with its header is pending when `DEQUEUE_MESSAGE` offers 4:
`VchiqRemovePendingVchiMsg` completes the request, and so does the ioctl. -/
theorem completed_twice : ∃ s, (requestMachine 8).Reachable s ∧ ¬ CompletedOnce s := by
  refine ⟨_, (requestMachine 8).reach_exec_get
    [.connected,
     .inCallerContext (sampleRequest 0 .createService 0) true true,
     .run (.ioDeviceControl (sampleRequest 0 .createService 0)) {},
     .run (.inFile 0 (.dispatchMessage (some .createService)
       (sampleRequest 0 .createService 0))) {},
     .rx 0 .openAck {},
     .rx 0 (.msg ⟨.data, 4⟩) {},
     .run (.inFile 0 (.newRxMsg ⟨.data, 4⟩)) {},
     .run (.inFile 0 (.processPendingMsg .rx)) {},
     .inCallerContext (sampleRequest 1 .awaitCompletion 0) true true,
     .run (.ioDeviceControl (sampleRequest 1 .awaitCompletion 0)) {},
     .run (.inFile 0 (.awaitCompletion (sampleRequest 1 .awaitCompletion 0))) {},
     .run (.inFile 0 (.processPendingMsg (.awaitCompletion
       (sampleRequest 1 .awaitCompletion 0)))) {},
     .run (.inFile 0 (.removePendingMsg (.awaitCompletion
       (sampleRequest 1 .awaitCompletion 0)) (sampleRequest 1 .awaitCompletion 0) 0)) {},
     .run (.inFile 0 (.removedPendingMsg (.awaitCompletion
       (sampleRequest 1 .awaitCompletion 0)) (sampleRequest 1 .awaitCompletion 0) 1)) {},
     .run (.inFile 0 (.completedPendingMsg (.awaitCompletion
       (sampleRequest 1 .awaitCompletion 0)))) {},
     .run (.inFile 0 (.processPendingVchiMsg (.removePendingMsg (.awaitCompletion
       (sampleRequest 1 .awaitCompletion 0))))) {},
     .inCallerContext (sampleRequest 2 .dequeueMessage 4) true true,
     .run (.ioDeviceControl (sampleRequest 2 .dequeueMessage 4)) {},
     .run (.inFile 0 (.dequeueMessage (sampleRequest 2 .dequeueMessage 4))) {},
     .run (.inFile 0 (.processPendingVchiMsg (.dequeueMessage
       (sampleRequest 2 .dequeueMessage 4)))) {}] (s := .start) rfl (by rfl), fun h => ?_⟩
  exact absurd (h.once 2) (by decide)

end RpiDrivers.Vchiq.Ioctl
