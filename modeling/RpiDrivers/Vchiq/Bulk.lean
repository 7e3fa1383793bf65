import Mathlib.Data.List.Nodup
import Mathlib.Logic.Function.Basic
import RpiDrivers.Lib.Machine

/-!
# Bulk transfers of a service (`slots.c`, `ioctl.c`)

A bulk transfer is tracked twice: its request waits in the manual queue `FILE_QUEUE_TX_DATA` or
`FILE_QUEUE_RX_DATA`, its user data and mode in `PendingBulkMsgList`. VC answers the bulks of a
direction in the order in which they were sent. A DONE message completes the next request of the
queue and is then listed as pending message; when it is reported by `AWAIT_COMPLETION`, the head
of `PendingBulkMsgList` goes with it.

A submission holds `PendingBulkMsgMutex` of its direction while it adds the entry, forwards the
request and sends the message. Each of these is a step, and so is a cancellation by the
framework, each half of the processing of a DONE message, and each report.

- `BulkPaired`: a DONE message completes its own bulk's request and is reported with its own
  bulk's user data and mode.
- `BulkOrderly`: the condition on a step.
- `bulkPaired_of_orderly`: **runs that keep to it pair all DONE messages**.
- `bulk_shifted`: after a cancellation a DONE message completes the next bulk's request.
-/

namespace RpiDrivers.Vchiq

open RpiDrivers.Lib

/-- `MSG_BULK_TYPE` -/
inductive MsgBulkType
  | tx
  | rx
  deriving DecidableEq

/-- `VCHIQ_BULK_MODE_T` -/
inductive VchiqBulkMode
  | callback
  | blocking
  | nocallback
  | waiting
  deriving DecidableEq

/-- A bulk transfer: its request, and what `VCHIQ_PENDING_BULK_MSG` keeps of it. -/
structure Bulk where
  request : Nat
  bulkUserData : Nat
  mode : VchiqBulkMode

/-- How far a submission is. -/
inductive SubmitStep
  | added
  | forwarded
  deriving DecidableEq

/-- The bulks of one direction. -/
structure BulkSide where
  /-- the submission that holds `PendingBulkMsgMutex` -/
  submitting : Option (Bulk × SubmitStep)
  /-- the manual queue -/
  fileQueue : List Nat
  pendingBulkMsgList : List Bulk
  /-- the bulks sent that VC has not answered, the oldest first -/
  sent : List Bulk

/-- A message in `PendingDataMsgList`; the bulk is the one that VC has answered. -/
inductive DataMsg
  | data
  | bulkDone (bulkType : MsgBulkType) (bulk : Bulk)

/-- What the first half of the processing of a DONE message did. -/
structure DoneRecord where
  /-- the bulk that VC has answered -/
  bulk : Bulk
  /-- its request was still in the queue -/
  waiting : Bool
  /-- the request completed -/
  completed : Option Nat

/-- What `VchiqRemovePendingMsg` did with a DONE message. -/
structure ReportRecord where
  bulk : Bulk
  /-- the entry removed from `PendingBulkMsgList` -/
  entry : Option Bulk
  /-- the message is returned to userland -/
  returned : Bool

/-- The state of a service. -/
structure BulkState where
  sides : MsgBulkType → BulkSide
  pendingDataMsgList : List DataMsg
  /-- the RX thread has completed a request and goes on with `VchiqProcessNewRxMsg` -/
  rxThread : Option (MsgBulkType × Bulk)
  /-- the number of requests so far -/
  requests : Nat
  done : List DoneRecord
  reports : List ReportRecord

/-- The atomic steps. -/
inductive BulkAction
  /-- a submission acquires the mutex and adds its entry, if that can be allocated -/
  | add (bulkType : MsgBulkType) (bulkUserData : Nat) (mode : VchiqBulkMode) (allocated : Bool)
  /-- it forwards its request to the queue -/
  | forward (bulkType : MsgBulkType) (success : Bool)
  /-- it sends its message, `VchiqBulkTransfer`, and releases the mutex -/
  | send (bulkType : MsgBulkType) (success : Bool)
  /-- the framework cancels a request in the queue -/
  | cancel (bulkType : MsgBulkType) (request : Nat)
  /-- the RX thread gets a DONE message and completes the next request -/
  | bulkDone (bulkType : MsgBulkType)
  /-- it lists the message, if an entry can be allocated -/
  | newRxMsg (allocated : Bool)
  /-- it lists a data message -/
  | data
  /-- `AWAIT_COMPLETION` takes the next message -/
  | report

/-- Change one direction. -/
def setSide (s : BulkState) (t : MsgBulkType) (side : BulkSide) : BulkState :=
  { s with sides := Function.update s.sides t side }

/-- `VchiqRemovePendingBulkMsg` without completion data: remove the last entry. -/
def removeTailBulkMsg (side : BulkSide) : BulkSide :=
  { side with pendingBulkMsgList := side.pendingBulkMsgList.dropLast }

/-- A failed submission: the entry is removed, the request taken from the queue unless the
framework has cancelled it, and the mutex released. -/
def abandon (side : BulkSide) (b : Bulk) : BulkSide :=
  { removeTailBulkMsg side with
    submitting := none
    fileQueue := side.fileQueue.erase b.request }

/-- A bulk is reported to userland unless its mode says otherwise. -/
def VchiqBulkMode.reported (mode : VchiqBulkMode) : Bool :=
  mode ≠ .blocking && mode ≠ .nocallback

/-- One step. -/
def bulkStep (s : BulkState) : BulkAction → Option BulkState
  | .add t bulkUserData mode allocated =>
    if (s.sides t).submitting = none then
      let b : Bulk := ⟨s.requests, bulkUserData, mode⟩
      let s := { s with requests := s.requests + 1 }
      if allocated then
        some (setSide s t { s.sides t with
          submitting := some (b, .added)
          pendingBulkMsgList := (s.sides t).pendingBulkMsgList ++ [b] })
      else some s
    else none
  | .forward t success =>
    match (s.sides t).submitting with
    | some (b, .added) =>
      if success then
        some (setSide s t { s.sides t with
          submitting := some (b, .forwarded)
          fileQueue := (s.sides t).fileQueue ++ [b.request] })
      else some (setSide s t { removeTailBulkMsg (s.sides t) with submitting := none })
    | _ => none
  | .send t success =>
    match (s.sides t).submitting with
    | some (b, .forwarded) =>
      if success then
        some (setSide s t { s.sides t with
          submitting := none
          sent := (s.sides t).sent ++ [b] })
      else some (setSide s t (abandon (s.sides t) b))
    | _ => none
  | .cancel t request =>
    if request ∈ (s.sides t).fileQueue then
      some (setSide s t { s.sides t with fileQueue := (s.sides t).fileQueue.erase request })
    else none
  | .bulkDone t =>
    match s.rxThread, (s.sides t).sent with
    | none, b :: sent =>
      let waiting := decide (b.request ∈ (s.sides t).fileQueue)
      match (s.sides t).fileQueue with
      | [] =>
        -- no request is waiting: the message is dropped
        some { setSide s t { s.sides t with sent := sent } with
          done := s.done ++ [⟨b, waiting, none⟩] }
      | request :: rest =>
        some { setSide s t { s.sides t with
            sent := sent
            fileQueue := rest } with
          rxThread := some (t, b)
          done := s.done ++ [⟨b, waiting, some request⟩] }
    | _, _ => none
  | .newRxMsg allocated =>
    s.rxThread.map fun (t, b) =>
      { s with
        rxThread := none
        pendingDataMsgList :=
          if allocated then s.pendingDataMsgList ++ [.bulkDone t b] else s.pendingDataMsgList }
  | .data =>
    if s.rxThread = none then
      some { s with pendingDataMsgList := s.pendingDataMsgList ++ [.data] }
    else none
  | .report =>
    match s.pendingDataMsgList with
    | [] => none
    | .data :: rest => some { s with pendingDataMsgList := rest }
    | .bulkDone t b :: rest =>
      if (s.sides t).submitting = none then
        let entry := (s.sides t).pendingBulkMsgList.head?
        some { setSide s t { s.sides t with
            pendingBulkMsgList := (s.sides t).pendingBulkMsgList.tail } with
          pendingDataMsgList := rest
          reports := s.reports ++ [⟨b, entry, entry.any (·.mode.reported)⟩] }
      else none

/-- No bulk is under way. -/
def BulkState.start : BulkState where
  sides := fun _ => ⟨none, [], [], []⟩
  pendingDataMsgList := []
  rxThread := none
  requests := 0
  done := []
  reports := []

/-- All interleavings. -/
def bulkMachine : Machine BulkState BulkAction where
  init s := s = .start
  step := bulkStep

/-! ## The property and the condition -/

/-- A DONE message completes the request of its own bulk if that is waiting, and nothing
otherwise, and it is reported with its own bulk's user data and mode or not at all. -/
structure BulkPaired (s : BulkState) : Prop where
  completes : ∀ d ∈ s.done, d.completed = if d.waiting then some d.bulk.request else none
  reports : ∀ r ∈ s.reports, ∀ entry, r.entry = some entry → entry = r.bulk

/-- The condition: no request is cancelled whose bulk has been sent and not been answered, none
whose bulk is then sent, and the entry for a DONE message can be allocated. -/
def BulkOrderly (s : BulkState) : BulkAction → Prop
  | .cancel t request => ∀ b ∈ (s.sides t).sent, b.request ≠ request
  | .send t success => success = true →
    ∀ b, (s.sides t).submitting = some (b, .forwarded) → b.request ∈ (s.sides t).fileQueue
  | .newRxMsg allocated => allocated = true
  | _ => True

/-! ## The invariant -/

/-- The submission in progress. -/
def BulkSide.inProgress (side : BulkSide) : List Bulk :=
  (side.submitting.map Prod.fst).toList

/-- The bulks of a direction whose DONE message is listed. -/
def listed (t : MsgBulkType) (msgs : List DataMsg) : List Bulk :=
  msgs.filterMap fun
    | .bulkDone t' b => if t' = t then some b else none
    | .data => none

/-- The bulk of a direction whose DONE message is about to be listed. -/
def listing (t : MsgBulkType) (rxThread : Option (MsgBulkType × Bulk)) : List Bulk :=
  (rxThread.bind fun (t', b) => if t' = t then some b else none).toList

/-- One direction in step: the queue holds the requests of the bulks that are sent, and perhaps
that of a submission in progress; the entries are those of the bulks that are answered and
not reported, of those sent, and of the submission; the requests are in order. -/
structure SideInv (side : BulkSide) (unreported : List Bulk) (requests : Nat) : Prop where
  queue : side.fileQueue = side.sent.map Bulk.request ∨
    ∃ b, side.submitting = some (b, .forwarded) ∧
      side.fileQueue = side.sent.map Bulk.request ++ [b.request]
  entries : side.pendingBulkMsgList = unreported ++ side.sent ++ side.inProgress
  ordered : ((side.sent ++ side.inProgress).map Bulk.request).Pairwise (· < ·)
  bounded : ∀ b ∈ side.sent ++ side.inProgress, b.request < requests

/-- The bulks of a direction that are answered and not reported, the oldest first. -/
def BulkState.unreported (s : BulkState) (t : MsgBulkType) : List Bulk :=
  listed t s.pendingDataMsgList ++ listing t s.rxThread

/-- Both directions in step, and the records in order. -/
structure BulkInv (s : BulkState) : Prop where
  sides : ∀ t, SideInv (s.sides t) (s.unreported t) s.requests
  paired : BulkPaired s

theorem SideInv.mono {side : BulkSide} {unreported : List Bulk} {n m : Nat}
    (h : SideInv side unreported n) (hle : n ≤ m) : SideInv side unreported m :=
  { h with bounded := fun b hb => Nat.lt_of_lt_of_le (h.bounded b hb) hle }

/-- The request of a submission in progress is not among those sent. -/
theorem SideInv.fresh {side : BulkSide} {unreported : List Bulk} {n : Nat}
    (h : SideInv side unreported n) {b : Bulk} {step : SubmitStep}
    (hsub : side.submitting = some (b, step)) : b.request ∉ side.sent.map Bulk.request := by
  intro hmem
  have hordered := h.ordered
  rw [List.map_append, List.pairwise_append] at hordered
  have hlast : b.request ∈ side.inProgress.map Bulk.request := by
    simp [BulkSide.inProgress, hsub]
  exact Nat.lt_irrefl _ (hordered.2.2 _ hmem _ hlast)

/-! ## Steps of a submission -/

variable {side : BulkSide} {unreported : List Bulk} {n : Nat} {b : Bulk}

theorem SideInv.add (h : SideInv side unreported n) (hsub : side.submitting = none)
    (hb : b.request = n) :
    SideInv { side with
      submitting := some (b, .added)
      pendingBulkMsgList := side.pendingBulkMsgList ++ [b] } unreported (n + 1) := by
  have hnone : side.inProgress = [] := by simp [BulkSide.inProgress, hsub]
  have hbounded := h.bounded
  have hordered := h.ordered
  rw [hnone, List.append_nil] at hbounded hordered
  constructor
  · rcases h.queue with hq | ⟨b', hb', -⟩
    · exact .inl hq
    · simp [hsub] at hb'
  · rw [h.entries, hnone, List.append_nil]
    rfl
  · rw [show BulkSide.inProgress _ = [b] from rfl, List.map_append, List.pairwise_append]
    refine ⟨hordered, List.pairwise_singleton .., fun r hr r' hr' => ?_⟩
    obtain ⟨b', hb', rfl⟩ := List.mem_map.1 hr
    obtain rfl : r' = b.request := by simpa using hr'
    rw [hb]
    exact hbounded b' hb'
  · rw [show BulkSide.inProgress _ = [b] from rfl]
    intro b' hb'
    rcases List.mem_append.1 hb' with hb' | hb'
    · exact Nat.lt_succ_of_lt (hbounded b' hb')
    · obtain rfl := List.mem_singleton.1 hb'
      omega

theorem SideInv.forward (h : SideInv side unreported n)
    (hsub : side.submitting = some (b, .added)) :
    SideInv { side with
      submitting := some (b, .forwarded)
      fileQueue := side.fileQueue ++ [b.request] } unreported n := by
  have hb : side.inProgress = [b] := by simp [BulkSide.inProgress, hsub]
  refine ⟨.inr ⟨b, rfl, ?_⟩, ?_, ?_, ?_⟩
  · rcases h.queue with hq | ⟨b', hb', -⟩
    · rw [hq]
    · simp [hsub] at hb'
  · rw [h.entries, hb]
    rfl
  · have hordered := h.ordered
    rw [hb] at hordered
    exact hordered
  · have hbounded := h.bounded
    rw [hb] at hbounded
    exact hbounded

/-- **A failed submission** leaves the direction as it was before. -/
theorem SideInv.abandon (h : SideInv side unreported n) {step : SubmitStep} {queue : List Nat}
    (hsub : side.submitting = some (b, step)) (hqueue : queue = side.sent.map Bulk.request) :
    SideInv { removeTailBulkMsg side with
      submitting := none
      fileQueue := queue } unreported n := by
  have hb : side.inProgress = [b] := by simp [BulkSide.inProgress, hsub]
  have hnone : BulkSide.inProgress { removeTailBulkMsg side with
      submitting := none
      fileQueue := queue } = [] := rfl
  refine ⟨.inl hqueue, ?_, ?_, ?_⟩
  · show side.pendingBulkMsgList.dropLast = _
    rw [h.entries, hb, hnone, List.append_nil, List.dropLast_concat]
    rfl
  · have hordered := h.ordered
    rw [List.map_append, List.pairwise_append] at hordered
    rw [hnone, List.append_nil]
    exact hordered.1
  · rw [hnone, List.append_nil]
    exact fun b' hb' => h.bounded b' (List.mem_append_left _ hb')

theorem SideInv.forward_failed (h : SideInv side unreported n)
    (hsub : side.submitting = some (b, .added)) :
    SideInv { removeTailBulkMsg side with submitting := none } unreported n := by
  refine h.abandon hsub ?_
  rcases h.queue with hq | ⟨b', hb', -⟩
  · exact hq
  · simp [hsub] at hb'

theorem SideInv.send_failed (h : SideInv side unreported n)
    (hsub : side.submitting = some (b, .forwarded)) :
    SideInv (Vchiq.abandon side b) unreported n := by
  refine h.abandon hsub ?_
  rcases h.queue with hq | ⟨b', hb', hq⟩
  · rw [hq, List.erase_of_not_mem (h.fresh hsub)]
  · obtain rfl : b = b' := by simpa [hsub] using hb'
    rw [hq, List.erase_append_right _ (h.fresh hsub), List.erase_cons_head, List.append_nil]

/-- **A submission that is sent** with its request in the queue. -/
theorem SideInv.send (h : SideInv side unreported n)
    (hsub : side.submitting = some (b, .forwarded)) (hwaiting : b.request ∈ side.fileQueue) :
    SideInv { side with
      submitting := none
      sent := side.sent ++ [b] } unreported n := by
  have hb : side.inProgress = [b] := by simp [BulkSide.inProgress, hsub]
  have hnone : BulkSide.inProgress { side with submitting := none, sent := side.sent ++ [b] } = [] :=
    rfl
  refine ⟨.inl ?_, ?_, ?_, ?_⟩
  · rcases h.queue with hq | ⟨b', hb', hq⟩
    · rw [hq] at hwaiting
      exact absurd hwaiting (h.fresh hsub)
    · obtain rfl : b = b' := by simpa [hsub] using hb'
      simp [hq]
  · rw [hnone, List.append_nil, ← List.append_assoc, h.entries, hb]
  · have hordered := h.ordered
    rw [hb] at hordered
    rwa [hnone, List.append_nil]
  · have hbounded := h.bounded
    rw [hb] at hbounded
    rwa [hnone, List.append_nil]

/-! ## Cancellation and DONE messages -/

/-- **A cancellation** of a request whose bulk is not sent. -/
theorem SideInv.cancel (h : SideInv side unreported n) {request : Nat}
    (hmem : request ∈ side.fileQueue) (hsent : ∀ b ∈ side.sent, b.request ≠ request) :
    SideInv { side with fileQueue := side.fileQueue.erase request } unreported n := by
  have hnot : request ∉ side.sent.map Bulk.request := by
    intro hr
    obtain ⟨b', hb', hr⟩ := List.mem_map.1 hr
    exact hsent b' hb' hr
  refine { h with queue := .inl ?_ }
  rcases h.queue with hq | ⟨b', hb', hq⟩
  · rw [hq] at hmem
    exact absurd hmem hnot
  · have hr : request = b'.request := by
      rw [hq] at hmem
      simpa [hnot] using hmem
    rw [hq, List.erase_append_right _ hnot, hr, List.erase_cons_head, List.append_nil]

/-- **A DONE message** finds the request of its own bulk at the head of the queue. -/
theorem SideInv.bulkDone (h : SideInv side unreported n) {sent : List Bulk}
    (hsent : side.sent = b :: sent) :
    ∃ rest, side.fileQueue = b.request :: rest ∧
      SideInv { side with sent := sent, fileQueue := rest } (unreported ++ [b]) n := by
  obtain ⟨hqueue, hentries, hordered, hbounded⟩ := h
  rw [hsent] at hqueue hentries hordered hbounded
  have hordered' := (List.pairwise_cons.1 hordered).2
  have hbounded' := fun b' hb' => hbounded b' (List.mem_cons_of_mem _ hb')
  have hentries' : side.pendingBulkMsgList = unreported ++ [b] ++ sent ++ side.inProgress := by
    rw [hentries]
    simp
  rcases hqueue with hq | ⟨b', hb', hq⟩
  · exact ⟨_, hq, .inl rfl, hentries', hordered', hbounded'⟩
  · exact ⟨_, hq, .inr ⟨b', hb', rfl⟩, hentries', hordered', hbounded'⟩

/-- **A report** takes the entry of its own bulk. -/
theorem SideInv.report (h : SideInv side (b :: unreported) n) :
    side.pendingBulkMsgList.head? = some b ∧
      SideInv { side with pendingBulkMsgList := side.pendingBulkMsgList.tail } unreported n := by
  rw [h.entries]
  exact ⟨rfl, { h with entries := rfl }⟩

/-! ## A step of the service -/

@[simp] theorem setSide_same (s : BulkState) (t : MsgBulkType) (side : BulkSide) :
    (setSide s t side).sides t = side := by
  simp [setSide]

@[simp] theorem setSide_other (s : BulkState) {t t' : MsgBulkType} (side : BulkSide)
    (h : t' ≠ t) : (setSide s t side).sides t' = s.sides t' := by
  simp [setSide, h]

@[simp] theorem setSide_pendingDataMsgList (s : BulkState) (t : MsgBulkType) (side : BulkSide) :
    (setSide s t side).pendingDataMsgList = s.pendingDataMsgList := rfl

@[simp] theorem setSide_rxThread (s : BulkState) (t : MsgBulkType) (side : BulkSide) :
    (setSide s t side).rxThread = s.rxThread := rfl

@[simp] theorem setSide_requests (s : BulkState) (t : MsgBulkType) (side : BulkSide) :
    (setSide s t side).requests = s.requests := rfl

theorem listed_append (t : MsgBulkType) (msgs msgs' : List DataMsg) :
    listed t (msgs ++ msgs') = listed t msgs ++ listed t msgs' :=
  List.filterMap_append

variable {s : BulkState} {t : MsgBulkType}

/-- **The frame rule**: a step that changes one direction, and neither the messages nor the
number of requests. -/
theorem BulkInv.setSide (h : BulkInv s)
    (hside : SideInv side (s.unreported t) s.requests) : BulkInv (Vchiq.setSide s t side) := by
  refine ⟨fun t' => ?_, ⟨h.paired.completes, h.paired.reports⟩⟩
  by_cases ht : t' = t
  · subst ht
    rw [setSide_same]
    exact hside
  · rw [setSide_other s side ht]
    exact h.sides t'

/-- A number of requests that has grown. -/
theorem BulkInv.mono (h : BulkInv s) (hle : s.requests ≤ n) :
    BulkInv { s with requests := n } :=
  ⟨fun t => (h.sides t).mono hle, ⟨h.paired.completes, h.paired.reports⟩⟩

/-- **The first half of the processing of a DONE message.** -/
theorem BulkInv.bulkDone (h : BulkInv s) (hrx : s.rxThread = none) {sent : List Bulk}
    (hsent : (s.sides t).sent = b :: sent) :
    ∃ rest, (s.sides t).fileQueue = b.request :: rest ∧
      BulkInv { Vchiq.setSide s t { s.sides t with
            sent := sent
            fileQueue := rest } with
          rxThread := some (t, b)
          done := s.done ++ [⟨b, true, some b.request⟩] } := by
  obtain ⟨rest, hqueue, hside⟩ := (h.sides t).bulkDone hsent
  refine ⟨rest, hqueue, fun t' => ?_, ⟨fun d hd => ?_, h.paired.reports⟩⟩
  · by_cases ht : t' = t
    · subst ht
      simpa [BulkState.unreported, listing, hrx] using hside
    · simpa [BulkState.unreported, listing, hrx, ht, Ne.symm ht] using h.sides t'
  · rcases List.mem_append.1 hd with hd | hd
    · exact h.paired.completes d hd
    · obtain rfl := List.mem_singleton.1 hd
      rfl

/-- **The second half** lists the message. -/
theorem BulkInv.newRxMsg (h : BulkInv s) (hrx : s.rxThread = some (t, b)) :
    BulkInv { s with
      rxThread := none
      pendingDataMsgList := s.pendingDataMsgList ++ [.bulkDone t b] } := by
  refine ⟨fun t' => ?_, ⟨h.paired.completes, h.paired.reports⟩⟩
  have hside := h.sides t'
  have hsame : listed t' (s.pendingDataMsgList ++ [.bulkDone t b]) ++ listing t' none =
      s.unreported t' := by
    rw [listed_append, BulkState.unreported, hrx]
    by_cases ht : t = t' <;> simp [listed, listing, ht]
  rw [← hsame] at hside
  exact hside

/-- **A report of a DONE message.** -/
theorem BulkInv.report (h : BulkInv s) {msgs : List DataMsg}
    (hmsgs : s.pendingDataMsgList = .bulkDone t b :: msgs) (returned : Bool) :
    BulkInv { Vchiq.setSide s t { s.sides t with
        pendingBulkMsgList := (s.sides t).pendingBulkMsgList.tail } with
      pendingDataMsgList := msgs
      reports := s.reports ++ [⟨b, (s.sides t).pendingBulkMsgList.head?, returned⟩] } := by
  have hlisted : s.unreported t = b :: (listed t msgs ++ listing t s.rxThread) := by
    simp [BulkState.unreported, hmsgs, listed]
  have hside := h.sides t
  rw [hlisted] at hside
  obtain ⟨hentry, hside⟩ := hside.report
  refine ⟨fun t' => ?_, ⟨h.paired.completes, fun r hr entry hr' => ?_⟩⟩
  · by_cases ht : t' = t
    · subst ht
      simpa [BulkState.unreported] using hside
    · simpa [BulkState.unreported, hmsgs, listed, ht, Ne.symm ht] using h.sides t'
  · rcases List.mem_append.1 hr with hr | hr
    · exact h.paired.reports r hr entry hr'
    · obtain rfl := List.mem_singleton.1 hr
      rw [hentry] at hr'
      exact (Option.some.inj hr').symm

theorem bulkInv_start : BulkInv .start where
  sides _ := ⟨.inl rfl, rfl, .nil, by simp [BulkState.start, BulkSide.inProgress]⟩
  paired := ⟨by simp [BulkState.start], by simp [BulkState.start]⟩

/-- **One step** under the condition, a case for each action. -/
theorem BulkInv.step {s' : BulkState} {a : BulkAction} (h : BulkInv s) (hok : BulkOrderly s a)
    (hs : bulkStep s a = some s') : BulkInv s' := by
  cases a with
  | add t bulkUserData mode allocated =>
    simp only [bulkStep] at hs
    split at hs
    · next hsub =>
      split at hs
      · obtain rfl := Option.some.inj hs
        exact (h.mono (Nat.le_succ _)).setSide ((h.sides t).add hsub rfl)
      · obtain rfl := Option.some.inj hs
        exact h.mono (Nat.le_succ _)
    · cases hs
  | forward t success =>
    simp only [bulkStep] at hs
    split at hs
    · next b hsub =>
      split at hs
      · obtain rfl := Option.some.inj hs
        exact h.setSide ((h.sides t).forward hsub)
      · obtain rfl := Option.some.inj hs
        exact h.setSide ((h.sides t).forward_failed hsub)
    · cases hs
  | send t success =>
    simp only [bulkStep] at hs
    split at hs
    · next b hsub =>
      split at hs
      · next hsuccess =>
        obtain rfl := Option.some.inj hs
        exact h.setSide ((h.sides t).send hsub (hok hsuccess b hsub))
      · obtain rfl := Option.some.inj hs
        exact h.setSide ((h.sides t).send_failed hsub)
    · cases hs
  | cancel t request =>
    simp only [bulkStep] at hs
    split at hs
    · next hmem =>
      obtain rfl := Option.some.inj hs
      exact h.setSide ((h.sides t).cancel hmem hok)
    · cases hs
  | bulkDone t =>
    simp only [bulkStep] at hs
    split at hs
    · next b sent hrx hsent =>
      -- the bulk that is done is the first of the queue
      obtain ⟨rest, hqueue, hinv⟩ := h.bulkDone hrx hsent
      rw [hqueue] at hs
      obtain rfl := Option.some.inj hs
      simpa using hinv
    · cases hs
  | newRxMsg allocated =>
    obtain ⟨⟨t, b⟩, hrx, rfl⟩ := Option.map_eq_some_iff.1 hs
    obtain rfl : allocated = true := hok
    exact h.newRxMsg hrx
  | data =>
    simp only [bulkStep] at hs
    split at hs
    · obtain rfl := Option.some.inj hs
      refine ⟨fun t => ?_, ⟨h.paired.completes, h.paired.reports⟩⟩
      simpa [BulkState.unreported, listed_append, listed] using h.sides t
    · cases hs
  | report =>
    simp only [bulkStep] at hs
    split at hs
    · cases hs
    · next msgs hmsgs =>
      obtain rfl := Option.some.inj hs
      refine ⟨fun t => ?_, ⟨h.paired.completes, h.paired.reports⟩⟩
      simpa [BulkState.unreported, hmsgs, listed] using h.sides t
    · next t b msgs hmsgs =>
      split at hs
      · obtain rfl := Option.some.inj hs
        exact h.report hmsgs _
      · cases hs

/-- **Runs that keep to the condition** pair all DONE messages. -/
theorem bulkPaired_of_orderly (h : bulkMachine.Reach BulkOrderly s) : BulkPaired s :=
  BulkInv.paired <| h.inv (by rintro _ rfl; exact bulkInv_start)
    fun _ _ _ hinv hok hs => hinv.step hok hs

/-- Two transmits: the first one is answered while the second one is submitted, and both are
reported. -/
theorem bulkPaired_of_orderly_two :
    ∃ s, bulkMachine.Reach BulkOrderly s ∧ BulkPaired s ∧
      s.done.map DoneRecord.completed = [some 0, some 1] ∧
      s.reports = [⟨⟨0, 7, .callback⟩, some ⟨0, 7, .callback⟩, true⟩,
        ⟨⟨1, 8, .nocallback⟩, some ⟨1, 8, .nocallback⟩, false⟩] := by
  have h0 : bulkMachine.Reach BulkOrderly .start := .init rfl
  have h1 := Machine.Reach.step (a := .add .tx 7 .callback true) h0 (by trivial) rfl
  have h2 := Machine.Reach.step (a := .forward .tx true) h1 (by trivial) rfl
  have h3 := Machine.Reach.step (a := .send .tx true) h2
    (by rintro - b hb; obtain rfl : _ = b := congrArg Prod.fst (Option.some.inj hb); decide) rfl
  have h4 := Machine.Reach.step (a := .add .tx 8 .nocallback true) h3 (by trivial) rfl
  have h5 := Machine.Reach.step (a := .forward .tx true) h4 (by trivial) rfl
  have h6 := Machine.Reach.step (a := .bulkDone .tx) h5 (by trivial) rfl
  have h7 := Machine.Reach.step (a := .send .tx true) h6
    (by rintro - b hb; obtain rfl : _ = b := congrArg Prod.fst (Option.some.inj hb); decide) rfl
  have h8 := Machine.Reach.step (a := .newRxMsg true) h7 (by trivial) rfl
  have h9 := Machine.Reach.step (a := .bulkDone .tx) h8 (by trivial) rfl
  have h10 := Machine.Reach.step (a := .newRxMsg true) h9 (by trivial) rfl
  have h11 := Machine.Reach.step (a := .report) h10 (by trivial) rfl
  have h12 := Machine.Reach.step (a := .report) h11 (by trivial) rfl
  exact ⟨_, h12, bulkPaired_of_orderly h12, rfl, rfl⟩

/-- Two bulks are sent and the first request is cancelled: the answer to the first bulk
completes the request of the second, which VC has not answered. -/
theorem bulk_shifted : ∃ s, bulkMachine.Reachable s ∧ ¬ BulkPaired s := by
  refine ⟨_, bulkMachine.reach_exec_get
    [.add .tx 7 .callback true, .forward .tx true, .send .tx true,
     .add .tx 8 .callback true, .forward .tx true, .send .tx true,
     .cancel .tx 0, .bulkDone .tx] (s := .start) rfl (by rfl), fun h => ?_⟩
  have := h.completes ⟨⟨0, 7, .callback⟩, false, some 1⟩ (List.mem_singleton.2 rfl)
  exact absurd this (by decide)

end RpiDrivers.Vchiq
