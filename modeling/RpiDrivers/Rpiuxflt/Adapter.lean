import RpiDrivers.Lib.Ledger
import RpiDrivers.Rpiuxflt.BounceBuffers

/-!
# The DMA adapter of the USB filter (`rpiuxflt/dma.c`)

`Dma_CreateDmaAdapter` allocates the adapter, gets that of the bus driver below, and allocates 32
bounce buffers from it. When one of these fails, it cleans up with `Dma_PutDmaAdapter`, which is
also how its caller releases the adapter later. That begins with an assertion: all the bounce
buffers are on the stack.

- `lifetime`: the creation of an adapter, and its release after a run of transfers.
- `settled_lifetime`: **what has been allocated is freed, each object once, wherever it fails**.
- `cleanUpSound_iff`: **the assertion holds exactly when everything could be allocated, and no
  bounce buffer is outstanding at the release**.
- `no_attached_adapter`: when the bus driver has no adapter, the assertion fails.
-/

namespace RpiDrivers.Rpiuxflt

open RpiDrivers.Lib

/-- What is allocated for an adapter. -/
inductive Object
  /-- the pool memory of the `FILTER_DMA_ADAPTER` -/
  | filterAdapter (address : Nat)
  /-- the adapter of the bus driver -/
  | attachedAdapter (address : Nat)
  | commonBuffer (length logicalAddress virtualAddress : Nat)

/-- `FILTER_BOUNCE_BUFFER`, as it is set up; `none` is `NULL`. -/
structure FilterBounceBuffer where
  virtualAddress : Option Nat
  numberOfElements : Nat
  address : Nat

/-- What it has been allocated. -/
def FilterBounceBuffer.object (b : FilterBounceBuffer) : Option Object :=
  b.virtualAddress.map (.commonBuffer filterScatterGatherMaxSize b.address ·)

/-- `FILTER_DMA_ADAPTER` -/
structure FilterDmaAdapter where
  pool : Nat
  attachedAdapter : Option Nat
  bounceBuffers : Nat → FilterBounceBuffer
  /-- the buffers are given by their index -/
  freeBounceBuffers : Nat → Option Nat
  currentFreeBounceBuffer : Nat

/-- What the kernel and the bus driver return. A common buffer is its virtual and its logical
address. -/
structure Allocations where
  filterAdapter : Option Nat
  attachedAdapter : Option Nat
  commonBuffer : Nat → Option (Nat × Nat)

/-- What has been allocated and freed, and whether no `NT_FRE_ASSERT` has failed. -/
structure Effects where
  ledger : Ledger Object
  asserted : Bool

namespace Effects

def acquire (w : Effects) (o : Object) : Effects := { w with ledger := w.ledger.acquire o }

def release (w : Effects) (o : Object) : Effects := { w with ledger := w.ledger.release o }

def assert (w : Effects) (b : Bool) : Effects := { w with asserted := w.asserted && b }

end Effects

/-! ## Creation and release -/

namespace FilterDmaAdapter

/-- After `RtlZeroMemory`. -/
def zero (pool : Nat) : FilterDmaAdapter where
  pool := pool
  attachedAdapter := none
  bounceBuffers := fun _ => ⟨none, 0, 0⟩
  freeBounceBuffers := fun _ => none
  currentFreeBounceBuffer := 0

def buffer (a : FilterDmaAdapter) : Nat → Option Object :=
  FilterBounceBuffer.object ∘ a.bounceBuffers

/-- The buffer at `i` is allocated. -/
def setBuffer (a : FilterDmaAdapter) (i : Nat) (virtualAddress address : Nat) : FilterDmaAdapter :=
  { a with
    bounceBuffers := Function.update a.bounceBuffers i ⟨some virtualAddress, 1, address⟩
    freeBounceBuffers := Function.update a.freeBounceBuffers i (some i) }

/-- The buffer at `i` is not allocated. -/
def failBuffer (a : FilterDmaAdapter) (i : Nat) : FilterDmaAdapter :=
  { a with
    bounceBuffers :=
      Function.update a.bounceBuffers i { a.bounceBuffers i with numberOfElements := 1 } }

/-- `Dma_PutDmaAdapter` -/
def put (a : FilterDmaAdapter) (w : Effects) : Effects :=
  let w := w.assert (a.currentFreeBounceBuffer == filterNumBounceBuffers)
  let w := (List.range filterNumBounceBuffers).foldl
    (fun w i => (a.buffer i).elim w w.release) w
  let w := a.attachedAdapter.elim w fun attached => w.release (.attachedAdapter attached)
  w.release (.filterAdapter a.pool)

/-- The loop of `Dma_CreateDmaAdapter`, which has `n` buffers to go. -/
def createBuffers (e : Allocations) :
    Nat → FilterDmaAdapter → Effects → Option FilterDmaAdapter × Effects
  | 0, a, w => (some { a with currentFreeBounceBuffer := filterNumBounceBuffers }, w)
  | n + 1, a, w =>
    let i := filterNumBounceBuffers - (n + 1)
    match e.commonBuffer i with
    | none => (none, (a.failBuffer i).put w)
    | some (virtualAddress, address) =>
      createBuffers e n (a.setBuffer i virtualAddress address)
        (w.acquire (.commonBuffer filterScatterGatherMaxSize address virtualAddress))

/-- `Dma_CreateDmaAdapter` -/
def create (e : Allocations) : Option FilterDmaAdapter × Effects :=
  match e.filterAdapter with
  | none => (none, ⟨.empty, true⟩)
  | some pool =>
    let a := zero pool
    let w : Effects := ⟨Ledger.empty.acquire (.filterAdapter pool), true⟩
    match e.attachedAdapter with
    | none => (none, a.put w)
    | some attached =>
      createBuffers e filterNumBounceBuffers { a with attachedAdapter := some attached }
        (w.acquire (.attachedAdapter attached))

/-- The adapter, as the transfers have left it. -/
def used (a : FilterDmaAdapter) (s : Filter) : FilterDmaAdapter :=
  { a with
    freeBounceBuffers := fun i => some (s.freeBounceBuffers i)
    currentFreeBounceBuffer := s.currentFreeBounceBuffer }

end FilterDmaAdapter

/-- An adapter is created, the transfers bring the filter to a state, and the adapter is released.
Nothing follows a creation that has failed. -/
def lifetime (e : Allocations) (s : Filter) : Effects :=
  match FilterDmaAdapter.create e with
  | (none, w) => w
  | (some a, w) => (a.used s).put w

/-- **The property**: each object that was allocated is freed, once, and no assertion fails. -/
structure CleanUpSound (e : Allocations) (s : Filter) : Prop where
  settled : (lifetime e s).ledger.Settled
  asserted : (lifetime e s).asserted = true

/-- Every allocation succeeds. -/
structure Allocations.Succeed (e : Allocations) : Prop where
  filterAdapter : e.filterAdapter.isSome
  attachedAdapter : e.attachedAdapter.isSome
  commonBuffer : ∀ i < filterNumBounceBuffers, (e.commonBuffer i).isSome

/-! ## The release -/

namespace FilterDmaAdapter

/-- The objects of an adapter, in the order in which they are freed. -/
def objects (a : FilterDmaAdapter) : List Object :=
  (List.range filterNumBounceBuffers).filterMap a.buffer ++
    a.attachedAdapter.toList.map .attachedAdapter ++ [.filterAdapter a.pool]

theorem foldl_release (table : Nat → Option Object) (places : List Nat) (w : Effects) :
    places.foldl (fun w i => (table i).elim w w.release) w =
      { w with ledger := w.ledger.releaseAll (places.filterMap table) } := by
  induction places generalizing w with
  | nil => rfl
  | cons i places ih =>
    rw [List.foldl_cons, ih, List.filterMap_cons]
    cases table i <;> rfl

/-- What the release does: the assertion, and the objects. -/
theorem put_eq (a : FilterDmaAdapter) (w : Effects) :
    a.put w = ⟨w.ledger.releaseAll a.objects,
      w.asserted && a.currentFreeBounceBuffer == filterNumBounceBuffers⟩ := by
  rw [put, foldl_release, objects, Ledger.releaseAll_append, Ledger.releaseAll_append]
  cases a.attachedAdapter <;> rfl

/-- The buffer at `i` is one object more. -/
theorem objects_setBuffer (a : FilterDmaAdapter) {i : Nat} (hi : i < filterNumBounceBuffers)
    (hfree : (a.bounceBuffers i).virtualAddress = none) (virtualAddress address : Nat) :
    (a.setBuffer i virtualAddress address).objects.Perm
      (.commonBuffer filterScatterGatherMaxSize address virtualAddress :: a.objects) := by
  have hbuffer : (a.setBuffer i virtualAddress address).buffer = Function.update a.buffer i
      (some (.commonBuffer filterScatterGatherMaxSize address virtualAddress)) :=
    Function.comp_update ..
  have hnone : a.buffer i = none := congrArg (Option.map _) hfree
  rw [objects, objects, hbuffer]
  exact ((perm_filterMap_update List.nodup_range (List.mem_range.2 hi) hnone _).append_right
    _).append_right _

theorem objects_failBuffer (a : FilterDmaAdapter) (i : Nat) :
    (a.failBuffer i).objects = a.objects := by
  have hbuffer : (a.failBuffer i).buffer = a.buffer :=
    (Function.comp_update ..).trans (Function.update_eq_self i a.buffer)
  rw [objects, objects, hbuffer]
  rfl

/-! ## The creation -/

/-- The first `i` buffers are allocated. The counter of the stack is not set before the end. -/
structure Creating (i : Nat) (a : FilterDmaAdapter) (w : Effects) : Prop where
  live : w.ledger.Live a.objects
  asserted : w.asserted = true
  unset : ∀ j, i ≤ j → (a.bounceBuffers j).virtualAddress = none
  stack : ∀ j < i, a.freeBounceBuffers j = some j
  free : a.currentFreeBounceBuffer = 0

/-- Everything is allocated, and all the buffers are on the stack. -/
structure Created (a : FilterDmaAdapter) (w : Effects) : Prop where
  live : w.ledger.Live a.objects
  asserted : w.asserted = true
  stack : ∀ j < filterNumBounceBuffers, a.freeBounceBuffers j = some j
  free : a.currentFreeBounceBuffer = filterNumBounceBuffers

variable {a : FilterDmaAdapter} {w : Effects} {e : Allocations}

/-- A creation that has failed after the pool memory was allocated. -/
structure Failed (r : Option FilterDmaAdapter × Effects) : Prop where
  null : r.1 = none
  settled : r.2.ledger.Settled
  assertion : r.2.asserted = false

namespace Creating

variable {i : Nat}

/-- The clean-up frees what there is, but the stack is not full. -/
theorem failed (h : Creating i a w) : Failed (none, a.put w) := by
  rw [put_eq, h.free]
  exact ⟨rfl, h.live.settled, Bool.and_false _⟩

theorem failBuffer (h : Creating i a w) : Creating i (a.failBuffer i) w := by
  refine { h with live := ?_, unset := fun j hj => ?_ }
  · rw [objects_failBuffer]
    exact h.live
  · by_cases hji : j = i
    · subst hji
      show (Function.update a.bounceBuffers j _ j).virtualAddress = none
      rw [Function.update_self]
      exact h.unset j hj
    · exact (congrArg _ (Function.update_of_ne hji _ _)).trans (h.unset j hj)

theorem setBuffer (h : Creating i a w) (hi : i < filterNumBounceBuffers)
    (virtualAddress address : Nat) :
    Creating (i + 1) (a.setBuffer i virtualAddress address)
      (w.acquire (.commonBuffer filterScatterGatherMaxSize address virtualAddress)) := by
  refine { h with live := ?_, unset := fun j hj => ?_, stack := fun j hj => ?_ }
  · exact h.live.acquire.of_perm (objects_setBuffer a hi (h.unset i le_rfl) _ _).symm
  · exact (congrArg _ (Function.update_of_ne (by omega) _ _)).trans (h.unset j (by omega))
  · by_cases hji : j = i
    · exact hji ▸ Function.update_self ..
    · exact (Function.update_of_ne hji _ _).trans (h.stack j (by omega))

end Creating

/-- The loop allocates all the buffers that are to go, or fails. -/
theorem createBuffers_spec : ∀ {n : Nat} {a : FilterDmaAdapter} {w : Effects},
    n ≤ filterNumBounceBuffers → Creating (filterNumBounceBuffers - n) a w →
    (Failed (createBuffers e n a w) ∧ ∃ i < filterNumBounceBuffers, e.commonBuffer i = none) ∨
    ∃ a' w', createBuffers e n a w = (some a', w') ∧ Created a' w' ∧
      ∀ i < filterNumBounceBuffers, filterNumBounceBuffers - n ≤ i → (e.commonBuffer i).isSome := by
  intro n
  induction n with
  | zero =>
    intro a w _ h
    refine .inr ⟨_, w, rfl, ⟨h.live, h.asserted, h.stack, rfl⟩, fun i hi hle => ?_⟩
    omega
  | succ n ih =>
    intro a w hn h
    obtain ⟨i, hi⟩ : ∃ i, i = filterNumBounceBuffers - (n + 1) := ⟨_, rfl⟩
    have hlt : i < filterNumBounceBuffers := by omega
    have hnext : filterNumBounceBuffers - n = i + 1 := by omega
    rw [← hi] at h
    rw [createBuffers, ← hi]
    cases hbuffer : e.commonBuffer i with
    | none => exact .inl ⟨h.failBuffer.failed, i, hlt, hbuffer⟩
    | some b =>
      have hset := h.setBuffer hlt b.1 b.2
      rw [← hnext] at hset
      rcases ih (Nat.le_of_succ_le hn) hset with hfailed | ⟨a', w', heq, hcreated, hsome⟩
      · exact .inl hfailed
      · refine .inr ⟨a', w', heq, hcreated, fun j hj hle => ?_⟩
        rcases Nat.eq_or_lt_of_le hle with rfl | hlt'
        · rw [hbuffer]
          rfl
        · exact hsome j hj (by omega)

/-- How the creation ends. -/
theorem create_spec (e : Allocations) :
    (e.filterAdapter = none ∧ create e = (none, ⟨.empty, true⟩)) ∨
    (e.filterAdapter ≠ none ∧ ¬ e.Succeed ∧ Failed (create e)) ∨
    ∃ a w, create e = (some a, w) ∧ Created a w ∧ e.Succeed := by
  rw [create]
  cases hpool : e.filterAdapter with
  | none => exact .inl ⟨rfl, rfl⟩
  | some pool =>
    have hzero : ∀ j, 0 ≤ j → ((zero pool).bounceBuffers j).virtualAddress = none := fun _ _ => rfl
    have hbuffers : (List.range filterNumBounceBuffers).filterMap (zero pool).buffer = [] :=
      List.filterMap_eq_nil_iff.2 fun _ _ => rfl
    cases hattached : e.attachedAdapter with
    | none =>
      refine .inr (.inl ⟨Option.some_ne_none pool, fun h => ?_, ?_⟩)
      · have hsome := h.attachedAdapter
        rw [hattached] at hsome
        cases hsome
      · refine Creating.failed (i := 0) ⟨?_, rfl, hzero, fun j hj => absurd hj j.not_lt_zero, rfl⟩
        rw [objects, hbuffers]
        exact Ledger.Live.empty.acquire
    | some attached =>
      have hcreating : Creating 0 { zero pool with attachedAdapter := some attached }
          ⟨(Ledger.empty.acquire (.filterAdapter pool)).acquire (.attachedAdapter attached),
            true⟩ := by
        refine ⟨?_, rfl, hzero, fun j hj => absurd hj j.not_lt_zero, rfl⟩
        have hobjects : FilterDmaAdapter.objects { zero pool with attachedAdapter := some attached }
            = [.attachedAdapter attached, .filterAdapter pool] := by
          rw [objects]
          exact congrArg (· ++ _ ++ _) hbuffers
        rw [hobjects]
        exact Ledger.Live.empty.acquire.acquire
      rcases createBuffers_spec (e := e) (n := filterNumBounceBuffers) le_rfl hcreating with
        ⟨hfailed, i, hi, hnone⟩ | ⟨a, w, heq, hcreated, hsome⟩
      · refine .inr (.inl ⟨Option.some_ne_none pool, fun h => ?_, hfailed⟩)
        have hbuffer := h.commonBuffer i hi
        rw [hnone] at hbuffer
        cases hbuffer
      · refine .inr (.inr ⟨a, w, heq, hcreated, ?_, ?_, fun i hi => hsome i hi (Nat.zero_le i)⟩)
        · rw [hpool]
          rfl
        · rw [hattached]
          rfl

/-- The transfers begin with the stack as the creation has left it. -/
theorem Created.start (h : Created a w) :
    Filter.start.currentFreeBounceBuffer = a.currentFreeBounceBuffer ∧
      ∀ i < a.currentFreeBounceBuffer, some (Filter.start.freeBounceBuffers i) =
        a.freeBounceBuffers i := by
  rw [h.free]
  exact ⟨rfl, fun i hi => (h.stack i hi).symm⟩

end FilterDmaAdapter

/-! ## The main results -/

/-- **What has been allocated is freed, each object once**, wherever the creation fails, and
whatever the transfers have done. -/
theorem settled_lifetime (e : Allocations) (s : Filter) : (lifetime e s).ledger.Settled := by
  rw [lifetime]
  rcases FilterDmaAdapter.create_spec e with ⟨-, heq⟩ | ⟨-, -, hfailed⟩ | ⟨a, w, heq, hcreated, -⟩
  · rw [heq]
    exact Ledger.Live.empty
  · obtain ⟨r, hr⟩ : ∃ r, r = FilterDmaAdapter.create e := ⟨_, rfl⟩
    rw [← hr] at hfailed ⊢
    obtain ⟨_ | a, w⟩ := r
    · exact hfailed.settled
    · cases hfailed.null
  · rw [heq]
    dsimp only
    rw [FilterDmaAdapter.put_eq]
    exact hcreated.live.settled

/-- **The assertion holds exactly when there was no memory for the adapter, or everything could be
allocated and no bounce buffer is outstanding at the release.** -/
theorem cleanUpSound_iff (e : Allocations) {s : Filter} (h : filterMachine.Reachable s) :
    CleanUpSound e s ↔ e.filterAdapter = none ∨ (e.Succeed ∧ s.outstanding = []) := by
  have hcount := (poolSound_of_reachable h).count
  have hsound : CleanUpSound e s ↔ (lifetime e s).asserted = true :=
    ⟨CleanUpSound.asserted, fun hasserted => ⟨settled_lifetime e s, hasserted⟩⟩
  rw [hsound, lifetime]
  rcases FilterDmaAdapter.create_spec e with
    ⟨hnone, heq⟩ | ⟨hsome, hnot, hfailed⟩ | ⟨a, w, heq, hcreated, hsucceed⟩
  · rw [heq]
    exact iff_of_true rfl (.inl hnone)
  · refine iff_of_false (fun hasserted => ?_) (not_or.2 ⟨hsome, fun h => hnot h.1⟩)
    obtain ⟨r, hr⟩ : ∃ r, r = FilterDmaAdapter.create e := ⟨_, rfl⟩
    rw [← hr] at hfailed hasserted
    obtain ⟨_ | a, w⟩ := r
    · cases hfailed.assertion.symm.trans hasserted
    · cases hfailed.null
  · rw [heq]
    dsimp only
    rw [FilterDmaAdapter.put_eq, hcreated.asserted, Bool.true_and, beq_iff_eq]
    have hfilter : e.filterAdapter ≠ none := Option.isSome_iff_ne_none.1 hsucceed.filterAdapter
    rw [or_iff_right hfilter, and_iff_right hsucceed, ← List.length_eq_zero_iff]
    show s.currentFreeBounceBuffer = filterNumBounceBuffers ↔ _
    omega

/-- The two transfers of `overlappingRun`, of which the second one is put as well. -/
def returnedRun : List FilterAction :=
  overlappingRun ++
    [.putScatterGatherList 30 ⟨1, 512⟩, .check 30, .acquirePut 30, .push 30, .releasePut]

/-- Everything is allocated, and the adapter is released after two transfers, which have left their
buffers on the stack in the other order. -/
theorem cleanUpSound_iff_returned :
    ∃ s, filterMachine.Reachable s ∧ s.freeBounceBuffers 30 = 31 ∧ s.freeBounceBuffers 31 = 30 ∧
      CleanUpSound ⟨some 1, some 2, fun i => some (i, 4096 * i)⟩ s :=
  have h := filterMachine.reach_exec_get returnedRun (s := Filter.start) rfl (by rfl)
  ⟨_, h, by rfl, by rfl, (cleanUpSound_iff ⟨some 1, some 2, fun i => some (i, 4096 * i)⟩ h).2
    (.inr ⟨⟨rfl, rfl, fun _ _ => rfl⟩, by rfl⟩)⟩

/-- The bus driver has no adapter. -/
theorem no_attached_adapter :
    ¬ CleanUpSound ⟨some 1, none, fun i => some (i, 4096 * i)⟩ Filter.start := by
  intro h
  have hasserted := h.asserted
  revert hasserted
  decide

end RpiDrivers.Rpiuxflt
