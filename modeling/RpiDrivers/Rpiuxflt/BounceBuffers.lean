import RpiDrivers.Lib.Machine
import RpiDrivers.Lib.Pool
import Mathlib.Data.List.Perm.Basic
import Mathlib.Data.List.Count

/-!
# The bounce buffers of the USB filter (`rpiuxflt/dma.c`)

A transfer takes one of 32 bounce buffers from a stack, under a spin lock, and gives it back when it
is put. The assertion that the stack is not full is made before the lock is taken.

- `filterMachine`: any number of calls and transfers, interleaved.
- `PoolSound`: each buffer is on the stack, or somebody has it.
- `poolSound_of_reachable`: **every run is sound**.
-/

namespace RpiDrivers.Rpiuxflt

open RpiDrivers.Lib

/-- `FILTER_NUM_BOUNCE_BUFFERS` -/
def filterNumBounceBuffers : Nat := 32

/-- `FILTER_SCATTER_GATHER_MAX_SIZE` -/
def filterScatterGatherMaxSize : Nat := 128 * 4096

inductive Status
  | success
  | invalidParameter
  | notSupported
  | bufferOverflow
  | unsuccessful
  deriving DecidableEq

/-- What a transfer writes into its bounce buffer. -/
structure BounceBuffer where
  mdl : Nat
  length : Nat
  deriving DecidableEq

/-- What is left of a call. -/
inductive Call
  /-- `Dma_GetScatterGatherList` waits for the lock -/
  | acquireGet (request : BounceBuffer)
  /-- it has the lock -/
  | take (request : BounceBuffer)
  /-- it has the lock, and has found so many free buffers and perhaps taken one -/
  | releaseGet (request : BounceBuffer) (free : Nat) (buffer : Option Nat)
  /-- it fills the buffer, and calls the `ExecutionRoutine` -/
  | execute (request : BounceBuffer) (free buffer : Nat)
  /-- `Dma_PutScatterGatherList` looks whether the stack is full -/
  | check (buffer : Nat)
  /-- it waits for the lock -/
  | acquirePut (buffer : Nat)
  /-- it has the lock -/
  | push (buffer : Nat)
  /-- it has the lock, and has pushed the buffer -/
  | releasePut
  deriving DecidableEq

/-- How `Dma_GetScatterGatherList` ends: how many buffers it found, and the one that it took. -/
structure Result where
  status : Status
  free : Nat
  buffer : Option Nat

/-- `FILTER_DMA_ADAPTER`, the calls, and the transfers that have a buffer. -/
structure Filter where
  freeBounceBuffers : Nat → Nat
  currentFreeBounceBuffer : Nat
  bounceBufferLock : Bool
  bounceBuffers : Nat → BounceBuffer
  calls : List Call
  /-- the buffers of the transfers, and what they have asked for -/
  transfers : List (Nat × BounceBuffer)
  results : List Result
  /-- no assertion has failed -/
  asserted : Bool

namespace Filter

variable (s : Filter)

def goOn (c : Call) (next : List Call) : Filter := { s with calls := advance s.calls c next }

/-- The checks at the start of `Dma_GetScatterGatherList`. -/
def checkRequest (mdl : Option Nat) (chained : Bool) (length : Nat) : Except Status BounceBuffer :=
  match mdl with
  | none => .error .invalidParameter
  | some mdl =>
    if chained then .error .notSupported
    else if filterScatterGatherMaxSize < length then .error .bufferOverflow
    else .ok ⟨mdl, length⟩

def getScatterGatherList (mdl : Option Nat) (chained : Bool) (length : Nat) : Filter :=
  match checkRequest mdl chained length with
  | .error status =>
    { s with results := s.results ++ [⟨status, s.currentFreeBounceBuffer, none⟩] }
  | .ok request => { s with calls := .acquireGet request :: s.calls }

/-- Pop the stack, when it is not empty. -/
def take (request : BounceBuffer) : Filter :=
  let free := s.currentFreeBounceBuffer
  if free = 0 then s.goOn (.take request) [.releaseGet request free none]
  else
    { s.goOn (.take request) [.releaseGet request free (some (s.freeBounceBuffers (free - 1)))] with
      currentFreeBounceBuffer := free - 1 }

def releaseGet (request : BounceBuffer) (free : Nat) (buffer : Option Nat) : Filter :=
  match buffer with
  | none =>
    { s.goOn (.releaseGet request free none) [] with
      bounceBufferLock := false
      results := s.results ++ [⟨.unsuccessful, free, none⟩] }
  | some b =>
    { s.goOn (.releaseGet request free (some b)) [.execute request free b] with
      bounceBufferLock := false }

def execute (request : BounceBuffer) (free buffer : Nat) : Filter :=
  { s.goOn (.execute request free buffer) [] with
    bounceBuffers := fun b => if b = buffer then request else s.bounceBuffers b
    transfers := (buffer, request) :: s.transfers
    results := s.results ++ [⟨.success, free, some buffer⟩] }

/-- A transfer is put. -/
def putScatterGatherList (buffer : Nat) (request : BounceBuffer) : Filter :=
  { s with
    transfers := s.transfers.erase (buffer, request)
    calls := .check buffer :: s.calls }

def check (buffer : Nat) : Filter :=
  { s.goOn (.check buffer) [.acquirePut buffer] with
    asserted := s.asserted && decide (s.currentFreeBounceBuffer < filterNumBounceBuffers) }

def push (buffer : Nat) : Filter :=
  { s.goOn (.push buffer) [.releasePut] with
    freeBounceBuffers := fun i =>
      if i = s.currentFreeBounceBuffer then buffer else s.freeBounceBuffers i
    currentFreeBounceBuffer := s.currentFreeBounceBuffer + 1 }

/-- `Dma_CreateDmaAdapter` -/
def start : Filter where
  freeBounceBuffers := fun i => i
  currentFreeBounceBuffer := filterNumBounceBuffers
  bounceBufferLock := false
  bounceBuffers := fun _ => ⟨0, 0⟩
  calls := []
  transfers := []
  results := []
  asserted := true

end Filter

inductive FilterAction
  | getScatterGatherList (mdl : Option Nat) (chained : Bool) (length : Nat)
  | acquireGet (request : BounceBuffer)
  | take (request : BounceBuffer)
  | releaseGet (request : BounceBuffer) (free : Nat) (buffer : Option Nat)
  | execute (request : BounceBuffer) (free buffer : Nat)
  | putScatterGatherList (buffer : Nat) (request : BounceBuffer)
  | check (buffer : Nat)
  | acquirePut (buffer : Nat)
  | push (buffer : Nat)
  | releasePut

namespace Filter

/-- When a step can happen. Only a transfer that has a buffer is put. -/
def enabled (s : Filter) : FilterAction → Prop
  | .getScatterGatherList .. => True
  | .acquireGet request => .acquireGet request ∈ s.calls ∧ s.bounceBufferLock = false
  | .take request => .take request ∈ s.calls
  | .releaseGet request free buffer => .releaseGet request free buffer ∈ s.calls
  | .execute request free buffer => .execute request free buffer ∈ s.calls
  | .putScatterGatherList buffer request => (buffer, request) ∈ s.transfers
  | .check buffer => .check buffer ∈ s.calls
  | .acquirePut buffer => .acquirePut buffer ∈ s.calls ∧ s.bounceBufferLock = false
  | .push buffer => .push buffer ∈ s.calls
  | .releasePut => .releasePut ∈ s.calls

instance : ∀ (s : Filter) (a : FilterAction), Decidable (s.enabled a)
  | _, .getScatterGatherList .. => inferInstanceAs (Decidable True)
  | _, .acquireGet _ | _, .acquirePut _ => inferInstanceAs (Decidable (_ ∧ _))
  | _, .take _ | _, .releaseGet .. | _, .execute .. | _, .putScatterGatherList .. | _, .check _
  | _, .push _ | _, .releasePut => inferInstanceAs (Decidable (_ ∈ _))

def effect (s : Filter) : FilterAction → Filter
  | .getScatterGatherList mdl chained length => s.getScatterGatherList mdl chained length
  | .acquireGet request =>
    { s.goOn (.acquireGet request) [.take request] with bounceBufferLock := true }
  | .take request => s.take request
  | .releaseGet request free buffer => s.releaseGet request free buffer
  | .execute request free buffer => s.execute request free buffer
  | .putScatterGatherList buffer request => s.putScatterGatherList buffer request
  | .check buffer => s.check buffer
  | .acquirePut buffer =>
    { s.goOn (.acquirePut buffer) [.push buffer] with bounceBufferLock := true }
  | .push buffer => s.push buffer
  | .releasePut => { s.goOn .releasePut [] with bounceBufferLock := false }

end Filter

/-- All interleavings. -/
def filterMachine : Machine Filter FilterAction :=
  Machine.guarded (· = Filter.start) Filter.enabled Filter.effect

/-! ## The property -/

/-- The buffer that a call has. -/
def Call.buffer : Call → Option Nat
  | .acquireGet _ | .take _ | .releasePut => none
  | .releaseGet _ _ buffer => buffer
  | .execute _ _ buffer | .check buffer | .acquirePut buffer | .push buffer => some buffer

/-- The entries of the stack. -/
def stackOf (freeBounceBuffers : Nat → Nat) (currentFreeBounceBuffer : Nat) : List Nat :=
  (List.range currentFreeBounceBuffer).map freeBounceBuffers

namespace Filter

def stack (s : Filter) : List Nat := stackOf s.freeBounceBuffers s.currentFreeBounceBuffer

/-- The buffers that are outstanding: those of the calls and those of the transfers. -/
def outstanding (s : Filter) : List Nat :=
  s.calls.filterMap Call.buffer ++ s.transfers.map Prod.fst

end Filter

/-- The buffers are on the stack or outstanding, each once; a transfer finds in its buffer what it
has asked for; a request that finds no buffer takes none; and no assertion fails. -/
structure PoolSound (s : Filter) : Prop where
  distinct : s.stack.Nodup
  count : s.currentFreeBounceBuffer + s.outstanding.length = filterNumBounceBuffers
  exclusive : s.outstanding.Nodup ∧ ∀ b ∈ s.outstanding, b ∉ s.stack
  kept : ∀ t ∈ s.transfers, s.bounceBuffers t.1 = t.2
  takesNone : ∀ r ∈ s.results, r.free = 0 ∨ r.status ≠ .success → r.buffer = none
  asserted : s.asserted = true

/-! ## Where a buffer is -/

def Call.holds (b : Nat) (c : Call) : Nat := if c.buffer = some b then 1 else 0

/-- How often a buffer is on the stack, in a call and in a transfer. -/
def holdersOf (b : Nat) (stack : List Nat) (calls : List Call)
    (transfers : List (Nat × BounceBuffer)) : Nat :=
  stack.count b + total (Call.holds b) calls + (transfers.map Prod.fst).count b

theorem count_filterMap_buffer (b : Nat) (calls : List Call) :
    (calls.filterMap Call.buffer).count b = total (Call.holds b) calls := by
  induction calls with
  | nil => rfl
  | cons c calls ih =>
    rw [total_cons, ← ih, List.filterMap_cons, Call.holds]
    cases hc : c.buffer with
    | none => simp
    | some b' =>
      rw [List.count_cons]
      simp only [beq_iff_eq, Option.some_inj]
      omega

/-- A step of a call exchanges the buffer that it has. -/
theorem holdersOf_advance (b : Nat) (stack : List Nat) {calls : List Call}
    (transfers : List (Nat × BounceBuffer)) {c : Call} (hc : c ∈ calls) (next : List Call) :
    holdersOf b stack (advance calls c next) transfers + c.holds b =
      holdersOf b stack calls transfers + total (Call.holds b) next := by
  have hsum := sum_advance (Call.holds b) hc next
  rw [holdersOf, holdersOf]
  omega

theorem stackOf_succ (freeBounceBuffers : Nat → Nat) (n : Nat) :
    stackOf freeBounceBuffers (n + 1) = stackOf freeBounceBuffers n ++ [freeBounceBuffers n] := by
  rw [stackOf, List.range_succ, List.map_append]
  rfl

/-- What is written above the stack does not change it. -/
theorem stackOf_above (freeBounceBuffers : Nat → Nat) (n b : Nat) :
    stackOf (fun i => if i = n then b else freeBounceBuffers i) n = stackOf freeBounceBuffers n := by
  refine List.map_congr_left fun i hi => if_neg ?_
  have hlt := List.mem_range.1 hi
  omega

theorem holdersOf_pop (b : Nat) (freeBounceBuffers : Nat → Nat) (n : Nat) (calls : List Call)
    (transfers : List (Nat × BounceBuffer)) :
    holdersOf b (stackOf freeBounceBuffers (n + 1)) calls transfers =
      holdersOf b (stackOf freeBounceBuffers n) calls transfers +
        if freeBounceBuffers n = b then 1 else 0 := by
  rw [holdersOf, holdersOf, stackOf_succ, List.count_append, List.count_singleton]
  simp only [beq_iff_eq]
  omega

theorem holdersOf_execute (b : Nat) (stack : List Nat) (calls : List Call)
    (transfers : List (Nat × BounceBuffer)) (t : Nat × BounceBuffer) :
    holdersOf b stack calls (t :: transfers) =
      holdersOf b stack calls transfers + if t.1 = b then 1 else 0 := by
  rw [holdersOf, holdersOf, List.map_cons, List.count_cons]
  simp only [beq_iff_eq]
  omega

/-- What a transfer had, the call that puts it has. -/
theorem holdersOf_put (b : Nat) (stack : List Nat) (calls : List Call)
    {transfers : List (Nat × BounceBuffer)} {t : Nat × BounceBuffer} (ht : t ∈ transfers) :
    holdersOf b stack (.check t.1 :: calls) (transfers.erase t) =
      holdersOf b stack calls transfers := by
  have hperm := ((List.perm_cons_erase ht).map Prod.fst).count_eq b
  rw [List.map_cons, List.count_cons] at hperm
  simp only [beq_iff_eq] at hperm
  have hhold : (Call.check t.1).holds b = if t.1 = b then 1 else 0 := by
    simp only [Call.holds, Call.buffer, Option.some_inj]
  rw [holdersOf, holdersOf, total_cons, hhold]
  omega

/-- The call has found a free buffer. -/
def Call.found : Call → Prop
  | .releaseGet _ free (some _) | .execute _ free _ => 0 < free
  | _ => True

namespace Filter

variable {s : Filter}

def holders (s : Filter) (b : Nat) : Nat := holdersOf b s.stack s.calls s.transfers

structure Inv (s : Filter) : Prop where
  holders : ∀ b, s.holders b = if b < filterNumBounceBuffers then 1 else 0
  kept : ∀ t ∈ s.transfers, s.bounceBuffers t.1 = t.2
  found : ∀ c ∈ s.calls, c.found
  takesNone : ∀ r ∈ s.results, r.free = 0 ∨ r.status ≠ .success → r.buffer = none
  asserted : s.asserted = true

namespace Inv

/-- The stack and the outstanding buffers are the 32 buffers, in some order. -/
theorem perm (h : Inv s) :
    (s.stack ++ s.outstanding).Perm (List.range filterNumBounceBuffers) := by
  refine List.perm_iff_count.2 fun b => ?_
  have hb := h.holders b
  rw [Filter.holders, holdersOf] at hb
  rw [outstanding, List.count_append, List.count_append, count_filterMap_buffer, List.count_range]
  omega

theorem count (h : Inv s) :
    s.currentFreeBounceBuffer + s.outstanding.length = filterNumBounceBuffers := by
  have hlength := h.perm.length_eq
  rw [List.length_append, List.length_range, stack, stackOf, List.length_map,
    List.length_range] at hlength
  exact hlength

/-- As long as a call has a buffer, the stack is not full. -/
theorem not_full (h : Inv s) {c : Call} (hc : c ∈ s.calls) {b : Nat} (hb : c.buffer = some b) :
    s.currentFreeBounceBuffer < filterNumBounceBuffers := by
  have hcount := h.count
  have hmem : b ∈ s.outstanding :=
    List.mem_append_left _ (List.mem_filterMap.2 ⟨c, hc, hb⟩)
  have hpos := List.length_pos_of_mem hmem
  omega

theorem found_advance (h : Inv s) (c : Call) {next : List Call} (hnext : ∀ c ∈ next, c.found) :
    ∀ c' ∈ advance s.calls c next, c'.found := fun c' hc' => by
  rcases mem_advance hc' with hn | hs
  · exact hnext c' hn
  · exact h.found c' hs

/-- A call goes on with its buffer, or without one. -/
theorem goOn (h : Inv s) {c : Call} (hc : c ∈ s.calls) (next : List Call)
    (hholds : ∀ b, total (Call.holds b) next = c.holds b) (hnext : ∀ c ∈ next, c.found)
    (lock : Bool) : Inv { s.goOn c next with bounceBufferLock := lock } := by
  refine { h with holders := fun b => ?_, found := h.found_advance c hnext }
  have hadvance := holdersOf_advance b s.stack s.transfers hc next
  have hb := h.holders b
  rw [hholds b] at hadvance
  exact (Nat.add_right_cancel hadvance).trans hb

theorem take (h : Inv s) {request : BounceBuffer} (hc : .take request ∈ s.calls) :
    Inv (s.take request) := by
  rw [Filter.take]
  split_ifs with hzero
  · exact h.goOn hc _ (fun _ => rfl) (by simp [Call.found]) s.bounceBufferLock
  · obtain ⟨n, hn⟩ : ∃ n, s.currentFreeBounceBuffer = n + 1 := Nat.exists_eq_succ_of_ne_zero hzero
    rw [hn, Nat.add_sub_cancel]
    have hfound : ∀ c ∈ [Call.releaseGet request (n + 1) (some (s.freeBounceBuffers n))],
        c.found := fun c hmem => by
      rw [List.mem_singleton.1 hmem]
      exact Nat.succ_pos n
    refine { h with holders := fun b => ?_, found := h.found_advance _ hfound }
    have hadvance := holdersOf_advance b (stackOf s.freeBounceBuffers n) s.transfers hc
      [.releaseGet request (n + 1) (some (s.freeBounceBuffers n))]
    have hpop := holdersOf_pop b s.freeBounceBuffers n s.calls s.transfers
    have hb := h.holders b
    rw [Filter.holders, stack, hn] at hb
    have htake : (Call.take request).holds b = 0 := rfl
    have hhold : total (Call.holds b)
        [.releaseGet request (n + 1) (some (s.freeBounceBuffers n))] =
        if s.freeBounceBuffers n = b then 1 else 0 := by
      simp [Call.holds, Call.buffer]
    rw [htake, hhold] at hadvance
    exact (hadvance.trans hpop.symm).trans hb

theorem releaseGet (h : Inv s) {request : BounceBuffer} {free : Nat} {buffer : Option Nat}
    (hc : .releaseGet request free buffer ∈ s.calls) :
    Inv (s.releaseGet request free buffer) := by
  cases buffer with
  | none =>
    have hgo := h.goOn hc [] (fun _ => rfl) (by simp) false
    refine { hgo with takesNone := fun r hr hnot => ?_ }
    rcases List.mem_append.1 hr with hs | hnew
    · exact h.takesNone r hs hnot
    · rw [List.mem_singleton.1 hnew]
  | some b =>
    have hfree : 0 < free := h.found _ hc
    exact h.goOn hc _ (fun _ => rfl) (by simpa [Call.found] using hfree) false

theorem execute (h : Inv s) {request : BounceBuffer} {free buffer : Nat}
    (hc : .execute request free buffer ∈ s.calls) : Inv (s.execute request free buffer) := by
  have hfree : 0 < free := h.found _ hc
  have hhold : ∀ b, (Call.execute request free buffer).holds b = if buffer = b then 1 else 0 :=
    fun b => by simp only [Call.holds, Call.buffer, Option.some_inj]
  have hother : ∀ t ∈ s.transfers, t.1 ≠ buffer := by
    intro t ht heq
    have hb := h.holders buffer
    have hcount : 0 < (s.transfers.map Prod.fst).count buffer :=
      List.count_pos_iff.2 (List.mem_map.2 ⟨t, ht, heq⟩)
    have hle : (Call.execute request free buffer).holds buffer ≤
      total (Call.holds buffer) s.calls := le_total _ hc
    rw [Filter.holders, holdersOf] at hb
    rw [hhold, if_pos rfl] at hle
    split_ifs at hb <;> omega
  refine { h with holders := fun b => ?_, kept := fun t ht => ?_,
                  found := h.found_advance _ (by simp), takesNone := fun r hr hnot => ?_ }
  · have hadvance := holdersOf_advance b s.stack s.transfers hc []
    have hexecute := holdersOf_execute b s.stack
      (advance s.calls (.execute request free buffer) []) s.transfers (buffer, request)
    have hb := h.holders b
    rw [hhold, total_nil] at hadvance
    exact (hexecute.trans hadvance).trans hb
  · rcases List.mem_cons.1 ht with rfl | hs
    · exact if_pos rfl
    · exact (if_neg (hother t hs)).trans (h.kept t hs)
  · rcases List.mem_append.1 hr with hs | hnew
    · exact h.takesNone r hs hnot
    · rw [List.mem_singleton.1 hnew] at hnot
      rcases hnot with hzero | hstatus
      · exact absurd hzero (Nat.ne_of_gt hfree)
      · exact absurd rfl hstatus

theorem putScatterGatherList (h : Inv s) {buffer : Nat} {request : BounceBuffer}
    (ht : (buffer, request) ∈ s.transfers) : Inv (s.putScatterGatherList buffer request) := by
  refine { h with holders := fun b => ?_, kept := fun t hs => h.kept t (List.mem_of_mem_erase hs),
                  found := fun c hc => ?_ }
  · exact (holdersOf_put b s.stack s.calls ht).trans (h.holders b)
  · rcases List.mem_cons.1 hc with rfl | hs
    · trivial
    · exact h.found c hs

theorem check (h : Inv s) {buffer : Nat} (hc : .check buffer ∈ s.calls) : Inv (s.check buffer) := by
  have hgo := h.goOn hc [.acquirePut buffer] (fun _ => rfl) (by simp [Call.found])
    s.bounceBufferLock
  refine { hgo with asserted := ?_ }
  show (s.asserted && decide (s.currentFreeBounceBuffer < filterNumBounceBuffers)) = true
  rw [h.asserted, decide_eq_true (h.not_full hc rfl)]
  rfl

theorem push (h : Inv s) {buffer : Nat} (hc : .push buffer ∈ s.calls) : Inv (s.push buffer) := by
  refine { h with holders := fun b => ?_,
                  found := h.found_advance _ (by simp [Call.found]) }
  have hadvance := holdersOf_advance b s.stack s.transfers hc [.releasePut]
  have hpop := holdersOf_pop b
    (fun i => if i = s.currentFreeBounceBuffer then buffer else s.freeBounceBuffers i)
    s.currentFreeBounceBuffer (advance s.calls (.push buffer) [.releasePut]) s.transfers
  have hb := h.holders b
  have hhold : (Call.push buffer).holds b = if buffer = b then 1 else 0 := by
    simp only [Call.holds, Call.buffer, Option.some_inj]
  have hrelease : total (Call.holds b) [.releasePut] = 0 := rfl
  rw [hhold, hrelease] at hadvance
  rw [stackOf_above, if_pos rfl] at hpop
  exact (hpop.trans hadvance).trans hb

theorem getScatterGatherList (h : Inv s) (mdl : Option Nat) (chained : Bool) (length : Nat) :
    Inv (s.getScatterGatherList mdl chained length) := by
  rw [Filter.getScatterGatherList]
  split
  · refine { h with takesNone := fun r hr hnot => ?_ }
    rcases List.mem_append.1 hr with hs | hnew
    · exact h.takesNone r hs hnot
    · rw [List.mem_singleton.1 hnew]
  · next request hrequest =>
    refine { h with holders := fun b => ?_, found := fun c hc => ?_ }
    · have hcall : (Call.acquireGet request).holds b = 0 := rfl
      have hb := h.holders b
      show holdersOf b s.stack (.acquireGet request :: s.calls) s.transfers = _
      rw [holdersOf, total_cons, hcall, Nat.zero_add]
      exact hb
    · rcases List.mem_cons.1 hc with rfl | hs
      · trivial
      · exact h.found c hs

theorem effect (h : Inv s) {a : FilterAction} (hen : s.enabled a) : Inv (s.effect a) := by
  cases a with
  | getScatterGatherList mdl chained length => exact h.getScatterGatherList mdl chained length
  | acquireGet request => exact h.goOn hen.1 _ (fun _ => rfl) (by simp [Call.found]) true
  | take request => exact h.take hen
  | releaseGet request free buffer => exact h.releaseGet hen
  | execute request free buffer => exact h.execute hen
  | putScatterGatherList buffer request => exact h.putScatterGatherList hen
  | check buffer => exact h.check hen
  | acquirePut buffer => exact h.goOn hen.1 _ (fun _ => rfl) (by simp [Call.found]) true
  | push buffer => exact h.push hen
  | releasePut => exact h.goOn hen _ (fun _ => rfl) (by simp) false

end Inv

theorem inv_start : Inv start := by
  refine ⟨fun b => ?_, fun t ht => (nomatch ht), fun c hc => (nomatch hc), fun r hr => (nomatch hr),
    rfl⟩
  have hstack : start.stack = List.range filterNumBounceBuffers := List.map_id _
  rw [holders, hstack, holdersOf, List.count_range]
  rfl

end Filter

/-- **Every run is sound**. -/
theorem poolSound_of_reachable {s : Filter} (h : filterMachine.Reachable s) : PoolSound s := by
  have hinv : Filter.Inv s := by
    refine Machine.Reach.inv_guarded (fun s hs => ?_) (fun s a hinv _ hen => ?_) h
    · rw [hs]
      exact Filter.inv_start
    · exact hinv.effect hen
  have hnodup : (s.stack ++ s.outstanding).Nodup := hinv.perm.nodup_iff.2 List.nodup_range
  obtain ⟨hstack, houtstanding, hdisjoint⟩ := List.nodup_append.1 hnodup
  exact ⟨hstack, hinv.count, ⟨houtstanding, fun b hb hs => hdisjoint b hs b hb rfl⟩, hinv.kept,
    hinv.takesNone, hinv.asserted⟩

/-- Two transfers overlap, and the first is put. -/
def overlappingRun : List FilterAction :=
  [.getScatterGatherList (some 1) false 512, .getScatterGatherList (some 2) false 4096,
    .acquireGet ⟨2, 4096⟩, .take ⟨2, 4096⟩, .releaseGet ⟨2, 4096⟩ 32 (some 31),
    .acquireGet ⟨1, 512⟩, .take ⟨1, 512⟩, .execute ⟨2, 4096⟩ 32 31,
    .releaseGet ⟨1, 512⟩ 31 (some 30), .execute ⟨1, 512⟩ 31 30,
    .putScatterGatherList 31 ⟨2, 4096⟩, .check 31, .acquirePut 31, .push 31, .releasePut]

theorem poolSound_of_reachable_overlapping :
    ∃ s, filterMachine.Reachable s ∧ s.transfers = [(30, ⟨1, 512⟩)] ∧ PoolSound s :=
  have h := filterMachine.reach_exec_get overlappingRun (s := Filter.start) rfl (by rfl)
  ⟨_, h, by rfl, poolSound_of_reachable h⟩

end RpiDrivers.Rpiuxflt
