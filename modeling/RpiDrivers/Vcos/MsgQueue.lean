import Mathlib.Tactic.ByContra
import RpiDrivers.Lib.LinkedQueue
import RpiDrivers.Lib.Machine

/-!
# Message queues (`vcos_msgqueue.c`)

Messages are linked through their `next` fields. A sender appends its message under the lock of the
queue and then posts the semaphore; a receiver waits for the semaphore and then takes the first
message under the lock. `vcos_msg_peek` takes the first message, if there is one, and waits for the
semaphore with the lock held.

- `queueMachine`: any number of threads, queues and messages, by the sections that hold a lock and
  the operations on the semaphores.
- `Sound`: each queue has the messages that were appended and not taken, in order; each message is
  in one place; no assertion fails.
- `allSound_iff`: **exactly the runs whose replies are messages without a link are sound**. A reply
  does not clear the link to the message that was next in the queue it came from.
- `Stuck`: a peek waits for a semaphore that no sender is about to post. `stuck_stable`: **a queue
  that is stuck stays so**; `noneStuck_iff`: **exactly when no queue gets stuck**.
- `delivers_of_reach`: **queues with one receiver** never get stuck, and their messages get on.
-/

namespace RpiDrivers.Vcos.MsgQueue

open RpiDrivers.Lib

/-- Where a message is. -/
inductive Place
  /-- a thread has it -/
  | held
  | queued (q : Nat)
  /-- a thread that peeks has taken it -/
  | peeked (q : Nat)
  deriving DecidableEq

/-- `VCOS_MSGQUEUE_T`, and what its threads are about to do. -/
structure Queue where
  list : LinkedQueue Nat
  sem : Nat
  /-- senders that have appended a message, and not posted the semaphore -/
  posting : Nat
  /-- receivers that have passed the semaphore, and not taken the lock -/
  waiting : Nat
  /-- the message that `vcos_msg_peek` has taken; it holds the lock -/
  peeking : Option Nat
  /-- the messages that have been appended and not been taken, as they should be -/
  pending : List Nat
  sent : List Nat
  received : List Nat

structure State where
  queue : Nat → Queue
  /-- `next` of each message -/
  next : Nat → Option Nat
  /-- `waiter` of each message, when it is a queue -/
  waiter : Nat → Option Nat
  place : Nat → Place
  /-- an assertion, or an access through a null pointer -/
  failed : Bool

inductive Action
  /-- `vcos_msg_send`, up to the semaphore -/
  | send (q m : Nat)
  /-- `vcos_msg_reply`, up to the semaphore -/
  | reply (m : Nat)
  /-- `vcos_semaphore_post` -/
  | post (q : Nat)
  /-- `vcos_semaphore_wait` of `vcos_msg_wait` -/
  | pass (q : Nat)
  /-- the rest of `vcos_msg_wait` -/
  | take (q : Nat)
  /-- `vcos_msg_peek`, up to the semaphore -/
  | peek (q : Nat)
  /-- the rest of `vcos_msg_peek` -/
  | finishPeek (q : Nat)
  /-- `vcos_msg_set_source` -/
  | setSource (m q : Nat)

namespace State

variable (s : State)

/-- No thread has anything to do, and the threads have all messages. -/
def start : State where
  queue := fun _ => ⟨.empty, 0, 0, 0, none, [], [], []⟩
  next := fun _ => none
  waiter := fun _ => none
  place := fun _ => .held
  failed := false

def setQueue (q : Nat) (queue : Queue) : State :=
  { s with queue := Function.update s.queue q queue }

/-- `msgq_append`; the sender is about to post the semaphore. -/
def msgqAppend (q m : Nat) : State :=
  match (s.queue q).list.append s.next m with
  | none => { s with failed := true }
  | some (next, list) =>
    { s.setQueue q
        { s.queue q with
          list := list
          posting := (s.queue q).posting + 1
          pending := (s.queue q).pending ++ [m]
          sent := (s.queue q).sent ++ [m] } with
      next := next
      place := Function.update s.place m (.queued q) }

/-- `vcos_msg_send_helper`, without a waiter. -/
def send (q m : Nat) : State :=
  { s with next := Function.update s.next m none }.msgqAppend q m

/-- `vcos_msgq_queue_waiter_on_reply` -/
def reply (m : Nat) : State :=
  match s.waiter m with
  | none => s
  | some q => s.msgqAppend q m

/-- `vcos_msg_wait`, under the lock. -/
def take (q : Nat) : State :=
  match (s.queue q).list.pop s.next with
  | none => { s with failed := true }
  | some (m, list) =>
    { s.setQueue q
        { s.queue q with
          list := list
          waiting := (s.queue q).waiting - 1
          pending := (s.queue q).pending.tail
          received := (s.queue q).received ++ [m] } with
      place := Function.update s.place m .held }

/-- `vcos_msg_peek`, up to the semaphore; it returns when there is no message. -/
def peek (q : Nat) : State :=
  match (s.queue q).list.pop s.next with
  | none => s
  | some (m, list) =>
    { s.setQueue q
        { s.queue q with
          list := list
          peeking := some m
          pending := (s.queue q).pending.tail
          received := (s.queue q).received ++ [m] } with
      place := Function.update s.place m (.peeked q) }

/-- `vcos_semaphore_wait` and `vcos_mutex_unlock` of `vcos_msg_peek`. -/
def finishPeek (q : Nat) : State :=
  match (s.queue q).peeking with
  | none => s
  | some m =>
    { s.setQueue q { s.queue q with sem := (s.queue q).sem - 1, peeking := none } with
      place := Function.update s.place m .held }

/-- When a step can happen: a message is sent by a thread that has it, and a lock is taken when no
peek holds it. -/
def enabled : Action → Prop
  | .send q m => s.place m = .held ∧ (s.queue q).peeking = none
  | .reply m => s.place m = .held ∧ ∃ q ∈ s.waiter m, (s.queue q).peeking = none
  | .post q => 0 < (s.queue q).posting
  | .pass q => 0 < (s.queue q).sem
  | .take q => 0 < (s.queue q).waiting ∧ (s.queue q).peeking = none
  | .peek q => (s.queue q).peeking = none
  | .finishPeek q => (s.queue q).peeking ≠ none ∧ 0 < (s.queue q).sem
  | .setSource m _ => s.place m = .held

instance : ∀ (s : State) (a : Action), Decidable (s.enabled a)
  | _, .send .. | _, .take _ | _, .finishPeek _ => inferInstanceAs (Decidable (_ ∧ _))
  | s, .reply m => inferInstanceAs (Decidable (_ ∧ ∃ q ∈ s.waiter m, (s.queue q).peeking = none))
  | _, .post _ | _, .pass _ => inferInstanceAs (Decidable (_ < _))
  | _, .peek _ | _, .setSource .. => inferInstanceAs (Decidable (_ = _))

def effect : Action → State
  | .send q m => s.send q m
  | .reply m => s.reply m
  | .post q =>
    s.setQueue q
      { s.queue q with sem := (s.queue q).sem + 1, posting := (s.queue q).posting - 1 }
  | .pass q =>
    s.setQueue q
      { s.queue q with sem := (s.queue q).sem - 1, waiting := (s.queue q).waiting + 1 }
  | .take q => s.take q
  | .peek q => s.peek q
  | .finishPeek q => s.finishPeek q
  | .setSource m q => { s with waiter := Function.update s.waiter m (some q) }

end State

/-- All interleavings. -/
def queueMachine : Machine State Action :=
  Machine.guarded (· = State.start) State.enabled State.effect

/-! ## The property -/

/-- One queue. -/
structure QueueOk (next : Nat → Option Nat) (place : Nat → Place) (q : Nat) (queue : Queue) :
    Prop where
  represents : Represents next queue.list queue.pending
  fifo : queue.sent = queue.received ++ queue.pending
  nodup : queue.pending.Nodup
  /-- each message has a count, a sender that is about to post one, or a receiver that has passed -/
  count : queue.pending.length + (if queue.peeking.isSome then 1 else 0) =
    queue.sem + queue.posting + queue.waiting
  pending : ∀ m, m ∈ queue.pending ↔ place m = .queued q
  peeking : ∀ m, queue.peeking = some m ↔ place m = .peeked q

structure Sound (s : State) : Prop where
  queue : ∀ q, QueueOk s.next s.place q (s.queue q)
  failed : s.failed = false

/-- The message of a reply has no link. -/
def Regular (s : State) : Action → Prop
  | .reply m => s.enabled (.reply m) → s.next m = none
  | _ => True

instance : ∀ (s : State) (a : Action), Decidable (Regular s a)
  | _, .reply _ => inferInstanceAs (Decidable (_ → _))
  | _, .send .. | _, .post _ | _, .pass _ | _, .take _ | _, .peek _ | _, .finishPeek _
  | _, .setSource .. => inferInstanceAs (Decidable True)

/-! ## Steps -/

@[simp] theorem queue_setQueue (s : State) (q : Nat) (queue : Queue) :
    (s.setQueue q queue).queue q = queue := Function.update_self ..

theorem queue_setQueue_of_ne (s : State) {q q' : Nat} (hne : q' ≠ q) (queue : Queue) :
    (s.setQueue q queue).queue q' = s.queue q' := Function.update_of_ne hne ..

theorem Sound.start : Sound .start where
  queue q :=
    { represents := .empty _
      fifo := rfl
      nodup := List.nodup_nil
      count := rfl
      pending := by simp [State.start]
      peeking := by simp [State.start] }
  failed := rfl

/-- Where a message has gone, seen from another place. -/
theorem place_update {place : Nat → Place} {m m' : Nat} {p p' : Place} (hp : p ≠ p')
    (hold : place m ≠ p') : Function.update place m p m' = p' ↔ place m' = p' := by
  by_cases heq : m' = m
  · rw [heq, Function.update_self]
    exact iff_of_false hp hold
  · rw [Function.update_of_ne heq]

namespace QueueOk

variable {next next' : Nat → Option Nat} {place : Nat → Place} {q : Nat} {queue : Queue}

/-- A message that a thread has is in no queue. -/
theorem notMem_of_held (h : QueueOk next place q queue) {m : Nat} (hheld : place m = .held) :
    m ∉ queue.pending := by
  intro hmem
  rw [(h.pending m).1 hmem] at hheld
  cases hheld

/-- A message that comes and goes elsewhere. -/
theorem frame (h : QueueOk next place q queue) {m : Nat} {p : Place}
    (hnext : ∀ b ∈ queue.pending, next' b = next b)
    (hqueued : p ≠ .queued q ∧ place m ≠ .queued q)
    (hpeeked : p ≠ .peeked q ∧ place m ≠ .peeked q) :
    QueueOk next' (Function.update place m p) q queue where
  represents := h.represents.congr hnext
  fifo := h.fifo
  nodup := h.nodup
  count := h.count
  pending m' := by rw [h.pending, place_update hqueued.1 hqueued.2]
  peeking m' := by rw [h.peeking, place_update hpeeked.1 hpeeked.2]

/-- A message is appended. -/
theorem append (h : QueueOk next place q queue) {m : Nat} {list : LinkedQueue Nat}
    (hheld : place m = .held) (hrepresents : Represents next' list (queue.pending ++ [m])) :
    QueueOk next' (Function.update place m (.queued q)) q
      { queue with
        list := list
        posting := queue.posting + 1
        pending := queue.pending ++ [m]
        sent := queue.sent ++ [m] } := by
  have hnot := h.notMem_of_held hheld
  have hcount := h.count
  constructor
  · exact hrepresents
  · dsimp only
    rw [h.fifo, List.append_assoc]
  · exact List.nodup_append_comm.1 (List.nodup_cons.2 ⟨hnot, h.nodup⟩)
  · dsimp only
    rw [List.length_append, List.length_singleton]
    omega
  · intro m'
    rw [List.mem_append, List.mem_singleton, h.pending]
    by_cases heq : m' = m
    · rw [heq, Function.update_self]
      exact iff_of_true (.inr rfl) rfl
    · rw [Function.update_of_ne heq]
      exact or_iff_left heq
  · intro m'
    rw [place_update (by simp) (by simp [hheld])]
    exact h.peeking m'

/-- **The first message is taken off the queue**, and goes to another place. -/
theorem pop (h : QueueOk next place q queue) {m : Nat} {rest : List Nat}
    {list : LinkedQueue Nat} (hpending : queue.pending = m :: rest)
    (hrepresents : Represents next list rest) {p : Place} (hp : p ≠ .queued q) {waiting : Nat}
    {peeking : Option Nat}
    (hcount : rest.length + (if peeking.isSome then 1 else 0) =
      queue.sem + queue.posting + waiting)
    (hpeeking : ∀ m', peeking = some m' ↔ Function.update place m p m' = .peeked q) :
    QueueOk next (Function.update place m p) q
      { queue with
        list := list
        waiting := waiting
        peeking := peeking
        pending := queue.pending.tail
        received := queue.received ++ [m] } := by
  have hnodup := h.nodup
  have hfifo := h.fifo
  have hmem := h.pending
  rw [hpending] at hnodup hfifo hmem ⊢
  obtain ⟨hnot, hrest⟩ := List.nodup_cons.1 hnodup
  refine ⟨hrepresents, ?_, hrest, hcount, fun m' => ?_, hpeeking⟩
  · dsimp only
    rw [hfifo, List.append_assoc]
    rfl
  · dsimp only [List.tail_cons]
    by_cases heq : m' = m
    · rw [heq, Function.update_self]
      exact iff_of_false hnot hp
    · rw [Function.update_of_ne heq, ← hmem, List.mem_cons]
      exact (or_iff_right heq).symm

/-- A receiver takes it, and has it then. -/
theorem take (h : QueueOk next place q queue) {m : Nat} {rest : List Nat}
    {list : LinkedQueue Nat} (hpending : queue.pending = m :: rest)
    (hrepresents : Represents next list rest) (hwaiting : 0 < queue.waiting) :
    QueueOk next (Function.update place m .held) q
      { queue with
        list := list
        waiting := queue.waiting - 1
        pending := queue.pending.tail
        received := queue.received ++ [m] } := by
  have hcount := h.count
  have hqueued : place m = .queued q := (h.pending m).1 (hpending ▸ List.mem_cons_self)
  rw [hpending, List.length_cons] at hcount
  refine h.pop hpending hrepresents (by simp) (by omega) fun m' => ?_
  rw [place_update (by simp) (by simp [hqueued])]
  exact h.peeking m'

/-- A peek takes it, which has the lock then. -/
theorem peek (h : QueueOk next place q queue) {m : Nat} {rest : List Nat}
    {list : LinkedQueue Nat} (hpending : queue.pending = m :: rest)
    (hrepresents : Represents next list rest) (hpeeking : queue.peeking = none) :
    QueueOk next (Function.update place m (.peeked q)) q
      { queue with
        list := list
        peeking := some m
        pending := queue.pending.tail
        received := queue.received ++ [m] } := by
  have hcount := h.count
  rw [hpending, List.length_cons, hpeeking] at hcount
  refine h.pop hpending hrepresents (by simp) hcount fun m' => ?_
  by_cases heq : m' = m
  · rw [heq, Function.update_self]
    exact iff_of_true rfl rfl
  · rw [Function.update_of_ne heq, ← h.peeking, hpeeking]
    exact iff_of_false (fun hsome => heq (Option.some.inj hsome).symm) (by simp)

/-- The peek returns, and its thread has the message. -/
theorem finishPeek (h : QueueOk next place q queue) {m : Nat} (hpeeking : queue.peeking = some m)
    (hsem : 0 < queue.sem) : QueueOk next (Function.update place m .held) q
      { queue with sem := queue.sem - 1, peeking := none } := by
  have hcount := h.count
  have hpeeked : place m = .peeked q := (h.peeking m).1 hpeeking
  constructor
  · exact h.represents
  · exact h.fifo
  · exact h.nodup
  · rw [hpeeking] at hcount
    dsimp only [Option.isSome_some, Option.isSome_none] at hcount ⊢
    rw [if_pos rfl] at hcount
    rw [if_neg (by decide)]
    omega
  · intro m'
    rw [place_update (by simp) (by simp [hpeeked])]
    exact h.pending m'
  · intro m'
    dsimp only
    by_cases heq : m' = m
    · rw [heq, Function.update_self]
      exact iff_of_false (by simp) (by simp)
    · rw [Function.update_of_ne heq, ← h.peeking, hpeeking]
      exact iff_of_false (by simp) (fun hsome => heq (Option.some.inj hsome).symm)

/-- The semaphore is posted or passed. -/
theorem semaphore (h : QueueOk next place q queue) {sem posting waiting : Nat}
    (hsame : sem + posting + waiting = queue.sem + queue.posting + queue.waiting) :
    QueueOk next place q { queue with sem := sem, posting := posting, waiting := waiting } :=
  { h with count := h.count.trans hsame.symm }

end QueueOk

namespace Sound

variable {s : State}

/-- A step on one queue that moves one message. -/
theorem change (h : Sound s) {q m : Nat} {p : Place} {queue : Queue}
    {next : Nat → Option Nat} (hqueue : QueueOk next (Function.update s.place m p) q queue)
    (hnext : ∀ b, s.place b ≠ .queued q → next b = s.next b)
    (hp : ∀ q', q' ≠ q → p ≠ .queued q' ∧ p ≠ .peeked q')
    (hold : ∀ q', q' ≠ q → s.place m ≠ .queued q' ∧ s.place m ≠ .peeked q') :
    Sound { s.setQueue q queue with next := next, place := Function.update s.place m p } := by
  refine ⟨fun q' => ?_, h.failed⟩
  show QueueOk next (Function.update s.place m p) q' ((s.setQueue q queue).queue q')
  by_cases hqq : q' = q
  · rw [hqq, queue_setQueue]
    exact hqueue
  · rw [queue_setQueue_of_ne s hqq]
    have hother := h.queue q'
    refine hother.frame (fun b hb => hnext b ?_) ⟨(hp q' hqq).1, (hold q' hqq).1⟩
      ⟨(hp q' hqq).2, (hold q' hqq).2⟩
    -- a message of another queue keeps its link
    rw [(hother.pending b).1 hb]
    exact fun heq => hqq (Place.queued.inj heq)

/-- **Appending a message** that a thread has: the queues are sound exactly when it has no link. -/
theorem msgqAppend (h : Sound s) {q m : Nat} (hheld : s.place m = .held) :
    Sound (s.msgqAppend q m) ↔ s.next m = none := by
  have hq := h.queue q
  obtain ⟨next, list, happend, hnext, hiff⟩ :=
    hq.represents.append_iff hq.nodup (hq.notMem_of_held hheld)
  rw [State.msgqAppend, happend]
  dsimp only
  constructor
  · intro hsound
    have hnew := (hsound.queue q).represents
    rw [queue_setQueue] at hnew
    exact hiff.1 hnew
  · intro hnull
    refine h.change (hq.append hheld (hiff.2 hnull)) (fun b hb => hnext b ?_) ?_ ?_
    · exact fun hmem => hb ((hq.pending b).1 hmem)
    · exact fun q' hqq => ⟨fun heq => hqq (Place.queued.inj heq).symm, by simp⟩
    · simp [hheld]

/-- Sending clears the link of the message. -/
theorem send (h : Sound s) {q m : Nat} (hheld : s.place m = .held) : Sound (s.send q m) := by
  have hclear : Sound { s with next := Function.update s.next m none } := by
    refine ⟨fun q' => ?_, h.failed⟩
    have hq := h.queue q'
    refine { hq with represents := hq.represents.congr fun b hb => Function.update_of_ne ?_ .. }
    rintro rfl
    exact hq.notMem_of_held hheld hb
  exact (hclear.msgqAppend hheld).2 (Function.update_self ..)

/-- **The assertion of `vcos_msg_wait` holds**: a receiver that has passed finds a message. -/
theorem exists_pending (h : Sound s) {q : Nat} (hwaiting : 0 < (s.queue q).waiting)
    (hpeeking : (s.queue q).peeking = none) :
    ∃ m rest, (s.queue q).pending = m :: rest := by
  have hcount := (h.queue q).count
  rw [hpeeking, Option.isSome_none, if_neg (by decide)] at hcount
  exact List.exists_cons_of_length_pos (by omega)

/-- The first message of a queue goes to a thread, or to a peek at this queue. -/
theorem pop (h : Sound s) {q m : Nat} {rest : List Nat} {p : Place} {queue : Queue}
    (hpending : (s.queue q).pending = m :: rest)
    (hqueue : QueueOk s.next (Function.update s.place m p) q queue)
    (hp : p = .held ∨ p = .peeked q) :
    Sound { s.setQueue q queue with place := Function.update s.place m p } := by
  have hplace : s.place m = .queued q :=
    ((h.queue q).pending m).1 (hpending ▸ List.mem_cons_self)
  refine h.change hqueue (fun _ _ => rfl) (fun q' hqq => ?_) fun q' hqq => ?_
  · rcases hp with rfl | rfl
    · simp
    · exact ⟨by simp, fun heq => hqq (Place.peeked.inj heq).symm⟩
  · exact ⟨fun heq => hqq (Place.queued.inj (heq.symm.trans hplace)), by simp [hplace]⟩

theorem take (h : Sound s) {q : Nat} (hwaiting : 0 < (s.queue q).waiting)
    (hpeeking : (s.queue q).peeking = none) : Sound (s.take q) := by
  have hq := h.queue q
  obtain ⟨m, rest, hpending⟩ := h.exists_pending hwaiting hpeeking
  obtain ⟨list, hpop, hrepresents⟩ := (hpending ▸ hq.represents).pop
  rw [State.take, hpop]
  exact h.pop hpending (hq.take hpending hrepresents hwaiting) (.inl rfl)

theorem peek (h : Sound s) {q : Nat} (hpeeking : (s.queue q).peeking = none) :
    Sound (s.peek q) := by
  have hq := h.queue q
  cases hpending : (s.queue q).pending with
  | nil =>
    have hempty := hq.represents
    rw [hpending] at hempty
    rw [State.peek, hempty.pop_nil]
    exact h
  | cons m rest =>
    obtain ⟨list, hpop, hrepresents⟩ := (hpending ▸ hq.represents).pop
    rw [State.peek, hpop]
    exact h.pop hpending (hq.peek hpending hrepresents hpeeking) (.inr rfl)

theorem finishPeek (h : Sound s) {q : Nat} (hsem : 0 < (s.queue q).sem) :
    Sound (s.finishPeek q) := by
  have hq := h.queue q
  rw [State.finishPeek]
  cases hpeeking : (s.queue q).peeking with
  | none => exact h
  | some m =>
    have hplace : s.place m = .peeked q := (hq.peeking m).1 hpeeking
    refine h.change (hq.finishPeek hpeeking hsem) (fun _ _ => rfl) (by simp) ?_
    exact fun q' hqq => ⟨by simp [hplace], fun heq =>
      hqq (Place.peeked.inj (heq.symm.trans hplace))⟩

theorem semaphore (h : Sound s) {q sem posting waiting : Nat}
    (hsame : sem + posting + waiting =
      (s.queue q).sem + (s.queue q).posting + (s.queue q).waiting) :
    Sound (s.setQueue q
      { s.queue q with sem := sem, posting := posting, waiting := waiting }) := by
  refine ⟨fun q' => ?_, h.failed⟩
  by_cases hqq : q' = q
  · rw [hqq, queue_setQueue]
    exact (h.queue q).semaphore hsame
  · rw [queue_setQueue_of_ne s hqq]
    exact h.queue q'

/-- **A step keeps the queues sound exactly when it meets the condition.** -/
theorem effect_iff (h : Sound s) {a : Action} (hen : s.enabled a) :
    Sound (s.effect a) ↔ Regular s a := by
  cases a with
  | send q m => exact iff_of_true (h.send hen.1) trivial
  | reply m =>
    obtain ⟨hheld, q, hwaiter, -⟩ := id hen
    show Sound (s.reply m) ↔ (s.enabled (.reply m) → s.next m = none)
    rw [State.reply, Option.mem_def.1 hwaiter, forall_prop_of_true hen]
    exact h.msgqAppend hheld
  | post q =>
    have hposting : 0 < (s.queue q).posting := hen
    refine iff_of_true (h.semaphore ?_) trivial
    omega
  | pass q =>
    have hsem : 0 < (s.queue q).sem := hen
    refine iff_of_true (h.semaphore ?_) trivial
    omega
  | take q => exact iff_of_true (h.take hen.1 hen.2) trivial
  | peek q => exact iff_of_true (h.peek hen) trivial
  | finishPeek q => exact iff_of_true (h.finishPeek hen.2) trivial
  | setSource m q => exact iff_of_true ⟨h.queue, h.failed⟩ trivial

end Sound

/-! ## Runs -/

/-- Every state that a step leads to is sound. -/
def SoundAfter (s : State) (a : Action) : Prop := ∀ s', queueMachine.step s a = some s' → Sound s'

/-- **The exact condition**: the states of a run are sound exactly when each reply is a message
without a link. -/
theorem allSound_iff (as : List Action) :
    queueMachine.AllOk SoundAfter .start as ↔ queueMachine.AllOk Regular .start as := by
  refine Machine.allOk_congr (fun s a h => ?_) (fun s a s' _ hgood hs => hgood s' hs) Sound.start
  by_cases hen : s.enabled a
  · have hstep : queueMachine.step s a = some (s.effect a) := if_pos hen
    rw [← h.effect_iff hen]
    constructor
    · exact fun hafter => hafter _ hstep
    · intro hsound s' hs
      rw [hstep] at hs
      exact Option.some.inj hs ▸ hsound
  · have hstep : queueMachine.step s a = none := if_neg hen
    refine iff_of_true (fun s' hs => ?_) ?_
    · rw [hstep] at hs
      cases hs
    · cases a with
      | reply m => exact fun h' => absurd h' hen
      | _ => trivial

/-! ## Queues that are stuck -/

/-- A peek holds the lock and waits for the semaphore, and no sender is about to post it. -/
def Stuck (s : State) (q : Nat) : Prop :=
  (s.queue q).peeking ≠ none ∧ (s.queue q).sem = 0 ∧ (s.queue q).posting = 0

/-- The queue that a step is about. -/
def State.target (s : State) : Action → Option Nat
  | .send q _ | .post q | .pass q | .take q | .peek q | .finishPeek q => some q
  | .reply m => s.waiter m
  | .setSource .. => none

section Frame

variable {s : State} {q q' : Nat}

theorem queue_msgqAppend_of_ne {m : Nat} (hne : q ≠ q') :
    (s.msgqAppend q' m).queue q = s.queue q := by
  rw [State.msgqAppend]
  cases (s.queue q').list.append s.next m with
  | none => rfl
  | some r => exact queue_setQueue_of_ne s hne _

/-- A step leaves the other queues as they are. -/
theorem queue_effect_of_ne {a : Action} (htarget : s.target a ≠ some q) :
    (s.effect a).queue q = s.queue q := by
  have hother : ∀ {q'}, some q' ≠ some q → q ≠ q' := fun hne heq => hne (congrArg some heq.symm)
  cases a with
  | send q' m => exact queue_msgqAppend_of_ne (hother htarget)
  | reply m =>
    show (s.reply m).queue q = _
    rw [State.reply]
    cases hwaiter : s.waiter m with
    | none => rfl
    | some q' =>
      have htarget' : s.waiter m ≠ some q := htarget
      rw [hwaiter] at htarget'
      exact queue_msgqAppend_of_ne (hother htarget')
  | post q' => exact queue_setQueue_of_ne s (hother htarget) _
  | pass q' => exact queue_setQueue_of_ne s (hother htarget) _
  | take q' =>
    show (s.take q').queue q = _
    rw [State.take]
    cases (s.queue q').list.pop s.next with
    | none => rfl
    | some r => exact queue_setQueue_of_ne s (hother htarget) _
  | peek q' =>
    show (s.peek q').queue q = _
    rw [State.peek]
    cases (s.queue q').list.pop s.next with
    | none => rfl
    | some r => exact queue_setQueue_of_ne s (hother htarget) _
  | finishPeek q' =>
    show (s.finishPeek q').queue q = _
    rw [State.finishPeek]
    cases (s.queue q').peeking with
    | none => rfl
    | some m => exact queue_setQueue_of_ne s (hother htarget) _
  | setSource m q' => rfl

/-- No step is about a queue that is stuck. -/
theorem target_ne_of_stuck {a : Action} (h : Stuck s q) (hen : s.enabled a) :
    s.target a ≠ some q := by
  obtain ⟨hpeeking, hsem, hposting⟩ := h
  intro htarget
  cases a with
  | send q' m =>
    obtain rfl := Option.some.inj htarget
    exact hpeeking hen.2
  | reply m =>
    obtain ⟨-, q', hwaiter, hfree⟩ := hen
    obtain rfl := Option.some.inj (hwaiter.symm.trans htarget)
    exact hpeeking hfree
  | post q' =>
    obtain rfl := Option.some.inj htarget
    exact absurd hposting (Nat.ne_of_gt hen)
  | pass q' =>
    obtain rfl := Option.some.inj htarget
    exact absurd hsem (Nat.ne_of_gt hen)
  | take q' =>
    obtain rfl := Option.some.inj htarget
    exact hpeeking hen.2
  | peek q' =>
    obtain rfl := Option.some.inj htarget
    exact hpeeking hen
  | finishPeek q' =>
    obtain rfl := Option.some.inj htarget
    exact absurd hsem (Nat.ne_of_gt hen.2)
  | setSource m q' => cases htarget

/-- **A queue that is stuck stays as it is**, whatever the threads do. -/
theorem stuck_stable {s' : State} (h : Stuck s q)
    (hs : queueMachine.Steps (fun _ _ => True) s s') : s'.queue q = s.queue q := by
  induction hs with
  | refl => rfl
  | tail _ _ hstep ih =>
    obtain ⟨hen, rfl⟩ := Machine.guarded_step.1 hstep
    rename_i t a _ _
    have hstuck : Stuck t q := by
      unfold Stuck
      rw [ih]
      exact h
    rw [queue_effect_of_ne (target_ne_of_stuck hstuck hen), ih]

end Frame

/-- A peek takes the message of a receiver that has passed the semaphore: both wait for good. -/
theorem stuck_stable_reached : ∃ s, queueMachine.Reachable s ∧ (s.queue 0).waiting = 1 ∧
    ∀ s', queueMachine.Steps (fun _ _ => True) s s' → s'.queue 0 = s.queue 0 := by
  obtain ⟨s, hr, hs⟩ := Machine.reach_exec_any queueMachine (s := State.start)
    [.send 0 1, .post 0, .pass 0, .peek 0]
    (p := fun s => (s.queue 0).peeking.isSome && (s.queue 0).sem == 0 &&
      (s.queue 0).posting == 0 && (s.queue 0).waiting == 1) rfl (by decide +kernel)
  simp only [Bool.and_eq_true, beq_iff_eq] at hs
  obtain ⟨⟨⟨hpeeking, hsem⟩, hposting⟩, hwaiting⟩ := hs
  have hstuck : Stuck s 0 := ⟨Option.isSome_iff_ne_none.1 hpeeking, hsem, hposting⟩
  exact ⟨s, hr, hwaiting, fun s' hsteps => stuck_stable hstuck hsteps⟩

/-- A peek that finds a message finds a count or a sender that is about to post one, and while a
peek waits, a receiver leaves one. -/
def Unblocked (s : State) : Action → Prop
  | .peek q => s.enabled (.peek q) →
    (s.queue q).list.head = none ∨ 0 < (s.queue q).sem + (s.queue q).posting
  | .pass q => s.enabled (.pass q) →
    (s.queue q).peeking = none ∨ 1 < (s.queue q).sem + (s.queue q).posting
  | _ => True

def NoneStuck (s : State) : Prop := ∀ q, ¬ Stuck s q

/-- A step on a queue whose lock is free and stays free. -/
theorem not_stuck_of_free {s : State} {q : Nat} (h : (s.queue q).peeking = none) : ¬ Stuck s q :=
  fun hstuck => hstuck.1 h

theorem peeking_msgqAppend (s : State) (q m : Nat) :
    ((s.msgqAppend q m).queue q).peeking = (s.queue q).peeking := by
  rw [State.msgqAppend]
  cases (s.queue q).list.append s.next m with
  | none => rfl
  | some r =>
    show ((s.setQueue q _).queue q).peeking = _
    rw [queue_setQueue]

/-- A peek that finds a message. -/
theorem queue_peek {s : State} {q m : Nat} (hhead : (s.queue q).list.head = some m) :
    (s.peek q).queue q =
      { s.queue q with
        list := ⟨s.next m, if (s.next m).isNone then none else (s.queue q).list.tail⟩
        peeking := some m
        pending := (s.queue q).pending.tail
        received := (s.queue q).received ++ [m] } := by
  rw [State.peek, LinkedQueue.pop, hhead]
  exact queue_setQueue ..

namespace NoneStuck

variable {s : State}

/-- Only the queue of the step matters. -/
theorem effect_iff_target (h : NoneStuck s) {a : Action} {q : Nat}
    (htarget : s.target a = some q) : NoneStuck (s.effect a) ↔ ¬ Stuck (s.effect a) q := by
  refine ⟨fun hall => hall q, fun hq q' => ?_⟩
  by_cases hqq : q' = q
  · rw [hqq]
    exact hq
  · have hne : s.target a ≠ some q' := by
      rw [htarget]
      exact fun heq => hqq (Option.some.inj heq).symm
    unfold Stuck
    rw [queue_effect_of_ne hne]
    exact h q'

/-- **A step gets no queue stuck exactly when it meets the condition.** -/
theorem effect_iff (h : NoneStuck s) {a : Action} (hen : s.enabled a) :
    NoneStuck (s.effect a) ↔ Unblocked s a := by
  cases a with
  | send q m =>
    refine iff_of_true ((h.effect_iff_target rfl).2 (not_stuck_of_free ?_)) trivial
    exact (peeking_msgqAppend ..).trans hen.2
  | reply m =>
    obtain ⟨-, q, hmem, hfree⟩ := hen
    have hwaiter : s.waiter m = some q := hmem
    refine iff_of_true ((h.effect_iff_target (a := .reply m) hwaiter).2 (not_stuck_of_free ?_))
      trivial
    show ((s.reply m).queue q).peeking = none
    rw [State.reply, hwaiter]
    exact (peeking_msgqAppend ..).trans hfree
  | post q =>
    refine iff_of_true ((h.effect_iff_target rfl).2 ?_) trivial
    rintro ⟨-, hsem, -⟩
    rw [show ((s.effect (.post q)).queue q) = _ from queue_setQueue ..] at hsem
    cases hsem
  | pass q =>
    have hsem : 0 < (s.queue q).sem := hen
    -- who passes takes away a post that a peeking thread may wait for
    show _ ↔ (s.enabled (.pass q) → _)
    rw [h.effect_iff_target rfl, forall_prop_of_true hen]
    unfold Stuck
    rw [show ((s.effect (.pass q)).queue q) = _ from queue_setQueue ..]
    by_cases hpeeking : (s.queue q).peeking = none
    · exact iff_of_true (fun hstuck => hstuck.1 hpeeking) (.inl hpeeking)
    · dsimp only
      constructor
      · intro hnot
        refine .inr (Nat.lt_of_not_le fun hle => hnot ⟨hpeeking, ?_, ?_⟩)
        · omega
        · omega
      · rintro (hnone | hlt) ⟨-, hzero, hposting⟩
        · exact hpeeking hnone
        · omega
  | take q =>
    refine iff_of_true ((h.effect_iff_target rfl).2 (not_stuck_of_free ?_)) trivial
    show ((s.take q).queue q).peeking = none
    rw [State.take]
    cases (s.queue q).list.pop s.next with
    | none => exact hen.2
    | some r =>
      show ((s.setQueue q _).queue q).peeking = none
      rw [queue_setQueue]
      exact hen.2
  | peek q =>
    show _ ↔ (s.enabled (.peek q) → _)
    rw [h.effect_iff_target rfl, forall_prop_of_true hen]
    show ¬ Stuck (s.peek q) q ↔ _
    -- with a message, the thread waits for a post and holds the lock
    cases hhead : (s.queue q).list.head with
    | none =>
      rw [State.peek, LinkedQueue.pop, hhead]
      exact iff_of_true (h q) (.inl rfl)
    | some m =>
      have hpeek := queue_peek hhead
      unfold Stuck
      rw [hpeek]
      constructor
      · intro hnot
        refine .inr (Nat.pos_of_ne_zero fun hzero => hnot ⟨Option.some_ne_none m, ?_, ?_⟩)
        · show (s.queue q).sem = 0
          omega
        · show (s.queue q).posting = 0
          omega
      · rintro (hnone | hlt) ⟨-, hzero, hposting⟩
        · cases hnone
        · have hzero' : (s.queue q).sem = 0 := hzero
          have hposting' : (s.queue q).posting = 0 := hposting
          omega
  | finishPeek q =>
    refine iff_of_true ((h.effect_iff_target rfl).2 (not_stuck_of_free ?_)) trivial
    show ((s.finishPeek q).queue q).peeking = none
    rw [State.finishPeek]
    cases hpeeking : (s.queue q).peeking with
    | none => exact hpeeking
    | some m =>
      show ((s.setQueue q _).queue q).peeking = none
      rw [queue_setQueue]
  | setSource m q => exact iff_of_true h trivial

end NoneStuck

/-- No step leads to a queue that is stuck. -/
def NoneStuckAfter (s : State) (a : Action) : Prop :=
  ∀ s', queueMachine.step s a = some s' → NoneStuck s'

/-- **The exact condition**: no queue gets stuck in a run exactly when each peek that finds a
message finds a count for it, or a sender that is about to post one, and receivers leave it
there. -/
theorem noneStuck_iff (as : List Action) :
    queueMachine.AllOk NoneStuckAfter .start as ↔ queueMachine.AllOk Unblocked .start as := by
  have hstart : NoneStuck .start := fun _ h => h.1 rfl
  refine Machine.allOk_congr (fun s a h => ?_) (fun s a s' _ hgood hs => hgood s' hs) hstart
  by_cases hen : s.enabled a
  · have hstep : queueMachine.step s a = some (s.effect a) := if_pos hen
    rw [← h.effect_iff hen]
    constructor
    · exact fun hafter => hafter _ hstep
    · intro hnone s' hs
      rw [hstep] at hs
      exact Option.some.inj hs ▸ hnone
  · have hstep : queueMachine.step s a = none := if_neg hen
    refine iff_of_true (fun s' hs => ?_) ?_
    · rw [hstep] at hs
      cases hs
    · cases a with
      | peek q => exact fun h' => absurd h' hen
      | pass q => exact fun h' => absurd h' hen
      | _ => trivial

/-! ## Queues with one receiver -/

/-- No thread waits for a message of a queue while another one peeks at it. -/
def Single (s : State) : Action → Prop
  | .peek q => (s.queue q).waiting = 0
  | .pass q => (s.queue q).peeking = none
  | a => Regular s a

instance : ∀ (s : State) (a : Action), Decidable (Single s a)
  | _, .peek _ | _, .pass _ => inferInstanceAs (Decidable (_ = _))
  | s, .reply m => inferInstanceAs (Decidable (Regular s (.reply m)))
  | _, .send .. | _, .post _ | _, .take _ | _, .finishPeek _ | _, .setSource .. =>
    inferInstanceAs (Decidable True)

/-- Some step on a queue can happen. -/
def Advances (s : State) (q : Nat) : Prop :=
  s.enabled (.post q) ∨ s.enabled (.pass q) ∨ s.enabled (.take q) ∨ s.enabled (.finishPeek q)

/-- **A message that is in a queue gets on**: its sender can post the semaphore, or a receiver can
pass it, take the message or return. -/
theorem Sound.advances {s : State} (h : Sound s) {q : Nat} (hstuck : ¬ Stuck s q)
    (hpending : (s.queue q).pending ≠ []) : Advances s q := by
  have hcount := (h.queue q).count
  have hpos := List.length_pos_iff.2 hpending
  by_cases hposting : 0 < (s.queue q).posting
  · exact .inl hposting
  by_cases hsem : 0 < (s.queue q).sem
  · exact .inr (.inl hsem)
  have hfree : (s.queue q).peeking = none := by
    by_contra hpeeking
    exact hstuck ⟨hpeeking, Nat.eq_zero_of_not_pos hsem, Nat.eq_zero_of_not_pos hposting⟩
  rw [hfree, Option.isSome_none, if_neg (by decide)] at hcount
  exact .inr (.inr (.inl ⟨by omega, hfree⟩))

/-- What holds of queues with one receiver. -/
structure Delivers (s : State) : Prop where
  sound : Sound s
  none : NoneStuck s
  advances : ∀ q, (s.queue q).pending ≠ [] → Advances s q

/-- **Queues with one receiver deliver**: in every run in which no thread waits for a message of a
queue while another one peeks at it, and each reply is a message without a link. -/
theorem delivers_of_reach {s : State} (h : queueMachine.Reach Single s) : Delivers s := by
  have hboth : Sound s ∧ NoneStuck s := by
    refine Machine.Reach.inv_guarded (P := fun s => Sound s ∧ NoneStuck s) ?_
      (fun s a hs hok hen => ?_) h
    · rintro s rfl
      exact ⟨.start, fun _ hstuck => hstuck.1 rfl⟩
    · rw [hs.1.effect_iff hen, hs.2.effect_iff hen]
      cases a with
      | peek q =>
        refine ⟨trivial, fun _ => ?_⟩
        -- the receivers have taken no count, so one is left for each message
        have hwaiting : (s.queue q).waiting = 0 := hok
        have hq := hs.1.queue q
        have hcount := hq.count
        cases hpending : (s.queue q).pending with
        | nil =>
          have hempty := hq.represents.links
          rw [hpending] at hempty
          exact .inl hempty
        | cons m rest =>
          rw [hpending, List.length_cons] at hcount
          right
          omega
      | pass q => exact ⟨trivial, fun _ => .inl hok⟩
      | reply m => exact ⟨hok, trivial⟩
      | _ => exact ⟨trivial, trivial⟩
  exact ⟨hboth.1, hboth.2, fun q => hboth.1.advances (hboth.2 q)⟩

/-- A message is sent and replied to, and the reply is peeked. -/
theorem delivers_of_reach_reply : ∃ s, Delivers s ∧ (s.queue 1).received = [1] := by
  obtain ⟨s, hr, hs⟩ := Machine.reach_execOk_any queueMachine Single (s := State.start)
    [.setSource 1 1, .send 0 1, .post 0, .pass 0, .take 0, .reply 1, .post 1, .peek 1,
      .finishPeek 1]
    (p := fun s => (s.queue 1).received == [1]) rfl (by decide +kernel)
  exact ⟨s, delivers_of_reach hr, beq_iff_eq.1 hs⟩

end RpiDrivers.Vcos.MsgQueue
