import Mathlib.Tactic.ByContra
import Mathlib.Tactic.SplitIfs
import RpiDrivers.Lib.Ledger
import RpiDrivers.Lib.Machine

/-!
# Preparing the PWM hardware (`device.cpp`, `AllocateDmaBuffer` in `dma.cpp`)

`PrepareHardware` goes through the resource list, maps three register regions and allocates the DMA
buffers. `ReleaseHardware` unmaps the regions; a prepare that fails calls it, and the framework
calls it again. The buffers are freed when the device is cleaned up.

- `Device.prepareHardware`, `Device.releaseHardware`, `Device.onDeviceContextCleanup`: the calls.
- `hardwareMachine`: the order in which the framework makes them.
- `Sound`: **every mapping is unmapped once, and every buffer freed once**.
- `Ready`: what a resource list is to be like, in the state that it is prepared in.
- `sound_of_ready`: **what is prepared only when it is ready stays sound**.
- `not_sound_of_not_ready`, `preparedSound_iff`: **and nothing less is enough**.
-/

namespace RpiDrivers.PwmDriver.Hardware

open RpiDrivers.Lib

/-- The `NTSTATUS` values that occur. -/
inductive Status
  | success
  | deviceConfigurationError
  | insufficientResources
  deriving DecidableEq

/-- `DMA_DREQ_PWM` -/
def dmaDreqPwm : Nat := 5

/-- `Width32Bits` -/
def width32Bits : Nat := 2

/-- `sizeof(DMA_CHANNEL_REGS)` -/
def dmaChannelRegsSize : Nat := 36

/-- `sizeof(PWM_REGS)` -/
def pwmRegsSize : Nat := 40

/-- `sizeof(CM_PWM_REGS)` -/
def cmPwmRegsSize : Nat := 8

/-- `PAGE_SIZE` -/
def pageSize : Nat := 4096

/-- A descriptor of the translated resource list, with the answers to the calls that it leads to. -/
inductive Resource
  /-- `CmResourceTypeMemory`, and whether `MmMapIoSpaceEx` maps it -/
  | memory (start : BitVec 64) (length : Nat) (maps : Bool)
  /-- `CmResourceTypeInterrupt` -/
  | interrupt
  /-- `CmResourceTypeDma`, and whether the data buffer and the control blocks are granted -/
  | dma (channel requestLine transferWidth : Nat) (grantsBuffer grantsCb : Bool)
  /-- any other type -/
  | other

/-- `DEVICE_CONTEXT`, what the resources are stored in. A pointer is the number of the mapping or
of the allocation that it came from. -/
structure DeviceContext where
  pwmRegsPa : BitVec 64 := 0
  pwmRegsBusPa : BitVec 64 := 0
  cmPwmRegsPa : BitVec 64 := 0
  dmaChannelRegsPa : BitVec 64 := 0
  memUncachedOffset : BitVec 32 := 0
  dmaChannelRegs : Option Nat := none
  pwmRegs : Option Nat := none
  cmPwmRegs : Option Nat := none
  dmaCb : Option Nat := none
  dmaControlDataSize : Nat := 0
  dmaBuffer : Option Nat := none
  dmaChannel : Nat := 0
  dmaDreq : Nat := 0
  dmaTransferWidth : Nat := 0

/-- Which call the framework may make next. -/
inductive Phase
  /-- a prepare, or the cleanup -/
  | released
  /-- the release, whether the prepare succeeded or not -/
  | prepared
  /-- nothing -/
  | cleanedUp
  deriving DecidableEq

/-- The device, with what has been mapped and allocated for it. -/
structure Device where
  ctx : DeviceContext
  phase : Phase
  mappings : Ledger Nat
  buffers : Ledger Nat
  controlBlocks : Ledger Nat
  /-- allocations that were made while an earlier one of the kind was held -/
  overlaps : Nat
  failedAssertions : Nat

namespace Device

variable (s : Device)

/-! ## Mapping registers -/

/-- `MmMapIoSpaceEx` -/
def mmMapIoSpaceEx (maps : Bool) : Option Nat × Device :=
  if maps then (some s.mappings.next, { s with mappings := s.mappings.acquire s.mappings.next })
  else (none, s)

/-- What `PrepareHardware` does for a region of registers: where the pointer and the address go is
passed as `store` and `storePa`. -/
def mapRegion (size length : Nat) (maps : Bool)
    (store : DeviceContext → Option Nat → DeviceContext) (storePa : DeviceContext → DeviceContext) :
    Status × Device :=
  if length < size then (.deviceConfigurationError, s)
  else
    let (regs, s) := s.mmMapIoSpaceEx maps
    let s := { s with ctx := store s.ctx regs }
    if regs = none then (.insufficientResources, s)
    else (.success, { s with ctx := storePa s.ctx })

/-- `case CmResourceTypeMemory`: what an entry is for depends on how many were before it. -/
def prepareMemory (memoryResources : Nat) (start : BitVec 64) (length : Nat) (maps : Bool) :
    Status × Device :=
  match memoryResources with
  | 0 => s.mapRegion dmaChannelRegsSize length maps (fun c p => { c with dmaChannelRegs := p })
      (fun c => { c with dmaChannelRegsPa := start })
  | 1 => s.mapRegion pwmRegsSize length maps (fun c p => { c with pwmRegs := p })
      (fun c => { c with pwmRegsPa := start })
  | 2 => (.success, { s with ctx := { s.ctx with pwmRegsBusPa := start } })
  | 3 => (.success, { s with ctx := { s.ctx with
      memUncachedOffset := start.setWidth 32 - s.ctx.pwmRegsPa.setWidth 32 } })
  | 4 => s.mapRegion cmPwmRegsSize length maps (fun c p => { c with cmPwmRegs := p })
      (fun c => { c with cmPwmRegsPa := start })
  | _ => (.deviceConfigurationError, s)

/-! ## The DMA buffers -/

/-- `MmAllocateContiguousNodeMemory`, for the data buffer -/
def allocateBuffer (grants : Bool) : Device :=
  if grants then
    { s with
      ctx := { s.ctx with dmaBuffer := some s.buffers.next }
      buffers := s.buffers.acquire s.buffers.next
      overlaps := s.overlaps + if s.buffers.outstanding = 0 then 0 else 1 }
  else { s with ctx := { s.ctx with dmaBuffer := none } }

/-- `MmAllocateContiguousNodeMemory`, for the control blocks -/
def allocateCb (grants : Bool) : Device :=
  if grants then
    { s with
      ctx := { s.ctx with dmaCb := some s.controlBlocks.next }
      controlBlocks := s.controlBlocks.acquire s.controlBlocks.next
      overlaps := s.overlaps + if s.controlBlocks.outstanding = 0 then 0 else 1 }
  else { s with ctx := { s.ctx with dmaCb := none } }

/-- `MmFreeContiguousMemory`, for the data buffer when it is not `NULL` -/
def freeBuffer : Device := { s with buffers := s.buffers.releaseAll s.ctx.dmaBuffer.toList }

/-- `MmFreeContiguousMemorySpecifyCache`, for the control blocks when they are not `NULL` -/
def freeCb : Device := { s with controlBlocks := s.controlBlocks.releaseAll s.ctx.dmaCb.toList }

/-- `AllocateDmaBuffer` -/
def allocateDmaBuffer (grantsBuffer grantsCb : Bool) : Status × Device :=
  -- NT_ASSERT(DeviceContext->dmaBuffer == NULL)
  let s := if s.ctx.dmaBuffer = none then s
    else { s with failedAssertions := s.failedAssertions + 1 }
  let s := s.allocateBuffer grantsBuffer
  if s.ctx.dmaBuffer = none then (.insufficientResources, s)
  else
    let s := { s with ctx := { s.ctx with dmaControlDataSize := pageSize } }
    let s := s.allocateCb grantsCb
    if s.ctx.dmaCb = none then
      let s := s.freeBuffer
      (.insufficientResources, { s with ctx := { s.ctx with dmaBuffer := none } })
    else (.success, s)

/-- `case CmResourceTypeDma`; the last component is whether `dmaResources` is counted. -/
def prepareDma (channel requestLine transferWidth : Nat) (grantsBuffer grantsCb : Bool) :
    Status × Device × Bool :=
  let s := { s with ctx := { s.ctx with
    dmaChannel := channel, dmaDreq := requestLine, dmaTransferWidth := transferWidth } }
  if s.ctx.dmaDreq ≠ dmaDreqPwm then (.deviceConfigurationError, s, false)
  else if s.ctx.dmaTransferWidth ≠ width32Bits then (.deviceConfigurationError, s, false)
  else
    let (status, s) := s.allocateDmaBuffer grantsBuffer grantsCb
    (status, s, true)

/-! ## The calls of the framework -/

/-- `MmUnmapIoSpace`, when the pointer is not `NULL` -/
def mmUnmapIoSpace (regs : Option Nat) : Device :=
  match regs with
  | none => s
  | some a => { s with mappings := s.mappings.release a }

/-- `ReleaseHardware` -/
def releaseHardware : Device :=
  let s := s.mmUnmapIoSpace s.ctx.dmaChannelRegs
  let s := s.mmUnmapIoSpace s.ctx.pwmRegs
  s.mmUnmapIoSpace s.ctx.cmPwmRegs

end Device

/-- The counters of `PrepareHardware`. -/
structure Counts where
  memoryResources : Nat := 0
  interruptResources : Nat := 0
  dmaResources : Nat := 0

/-- What `PrepareHardware` makes of the status after the loop. -/
def Counts.check (n : Counts) (status : Status) : Status :=
  let status := if n.memoryResources ≠ 5 then .deviceConfigurationError else status
  let status := if n.interruptResources ≠ 1 then .deviceConfigurationError else status
  if n.dmaResources ≠ 1 then .deviceConfigurationError else status

namespace Device

/-- The loop of `PrepareHardware`, for one descriptor -/
def prepareResource (r : Resource) (n : Counts) (s : Device) : Status × Counts × Device :=
  match r with
  | .memory start length maps =>
    match s.prepareMemory n.memoryResources start length maps with
    | (.success, s) => (.success, { n with memoryResources := n.memoryResources + 1 }, s)
    | (status, s) => (status, n, s)
  | .interrupt => (.success, { n with interruptResources := n.interruptResources + 1 }, s)
  | .dma channel requestLine transferWidth grantsBuffer grantsCb =>
    match s.prepareDma channel requestLine transferWidth grantsBuffer grantsCb with
    | (status, s, true) => (status, { n with dmaResources := n.dmaResources + 1 }, s)
    | (status, s, false) => (status, n, s)
  | .other => (.deviceConfigurationError, n, s)

/-- The loop of `PrepareHardware` -/
def prepareResources : List Resource → Counts → Device → Status × Counts × Device
  | [], n, s => (.success, n, s)
  | r :: rs, n, s =>
    match s.prepareResource r n with
    | (.success, n, s) => prepareResources rs n s
    | (status, n, s) => (status, n, s)

/-- `PrepareHardware` -/
def prepareHardware (resources : List Resource) (s : Device) : Status × Device :=
  let x := prepareResources resources {} s
  let status := x.2.1.check x.1
  if status = .success then (status, x.2.2) else (status, x.2.2.releaseHardware)

/-- `OnDeviceContextCleanup` -/
def onDeviceContextCleanup (s : Device) : Device := s.freeBuffer.freeCb

end Device

/-! ## The framework -/

inductive Action
  | prepareHardware (resources : List Resource)
  | releaseHardware
  | onDeviceContextCleanup

def enabled (s : Device) : Action → Prop
  | .prepareHardware _ => s.phase = .released
  | .releaseHardware => s.phase = .prepared
  | .onDeviceContextCleanup => s.phase = .released

instance (s : Device) (a : Action) : Decidable (enabled s a) := by
  cases a <;> exact inferInstanceAs (Decidable (_ = _))

def effect (s : Device) : Action → Device
  | .prepareHardware resources => { (s.prepareHardware resources).2 with phase := .prepared }
  | .releaseHardware => { s.releaseHardware with phase := .released }
  | .onDeviceContextCleanup => { s.onDeviceContextCleanup with phase := .cleanedUp }

/-- A device that has just been added. -/
def Device.start : Device where
  ctx := {}
  phase := .released
  mappings := .empty
  buffers := .empty
  controlBlocks := .empty
  overlaps := 0
  failedAssertions := 0

/-- The framework prepares and releases the device as often as it likes, releases it also when a
prepare has failed, and cleans it up at last. -/
def hardwareMachine : Machine Device Action := .guarded (· = Device.start) enabled effect

/-- **Every mapping is unmapped once**, by the end of a release, **and every buffer is freed once**,
by the cleanup; never is one allocated while an earlier one is held. -/
structure Sound (s : Device) : Prop where
  /-- the objects of a ledger are not the same -/
  distinct : s.mappings.acquired.Nodup ∧ s.buffers.acquired.Nodup ∧ s.controlBlocks.acquired.Nodup
  unmapped : s.phase ≠ .prepared → s.mappings.Settled
  freed : s.phase = .cleanedUp → s.buffers.Settled ∧ s.controlBlocks.Settled
  /-- none is released that is not held -/
  released : (∃ live, s.mappings.Live live) ∧ (∃ live, s.buffers.Live live) ∧
    ∃ live, s.controlBlocks.Live live
  overlaps : s.overlaps = 0
  failedAssertions : s.failedAssertions = 0

/-! ## Resource lists -/

namespace Resource

def isMemory : Resource → Bool
  | memory .. => true
  | _ => false

def isInterrupt : Resource → Bool
  | interrupt => true
  | _ => false

def isDma : Resource → Bool
  | dma .. => true
  | _ => false

/-- Buffers are allocated for the entry. -/
def isPwmDma : Resource → Bool
  | dma _ requestLine transferWidth _ _ =>
    requestLine = dmaDreqPwm && transferWidth = width32Bits
  | _ => false

/-- The size of the registers that the entry is for, after so many memory entries. -/
def regionSize : Nat → Option Nat
  | 0 => some dmaChannelRegsSize
  | 1 => some pwmRegsSize
  | 4 => some cmPwmRegsSize
  | _ => none

/-- The entry is good after so many memory entries, and everything is granted that it asks for. -/
def good (memoryResources : Nat) : Resource → Bool
  | memory _ length maps =>
    match regionSize memoryResources with
    | some size => size ≤ length && maps
    | none => memoryResources < 5
  | interrupt => true
  | dma _ requestLine transferWidth grantsBuffer grantsCb =>
    requestLine = dmaDreqPwm && transferWidth = width32Bits && grantsBuffer && grantsCb
  | other => false

end Resource

/-- Every entry is good. -/
def allGood (memoryResources : Nat) : List Resource → Bool
  | [] => true
  | r :: rs => r.good memoryResources && allGood (memoryResources + r.isMemory.toNat) rs

/-- The list is what the driver asks for. -/
def complete (resources : List Resource) : Bool :=
  allGood 0 resources && resources.countP Resource.isMemory = 5 &&
    resources.countP Resource.isInterrupt = 1 && resources.countP Resource.isDma = 1

/-- Registers are mapped: those of the DMA channel, for the first memory entry. -/
def mapsRegisters : List Resource → Bool
  | [] => false
  | r :: rs => r.good 0 && (r.isMemory || mapsRegisters rs)

/-- Buffers are allocated while others are held. -/
def allocatesHeld (held : Bool) (memoryResources : Nat) : List Resource → Bool
  | [] => false
  | r :: rs => r.isPwmDma && held || r.good memoryResources &&
      allocatesHeld (held || r.isDma) (memoryResources + r.isMemory.toNat) rs

/-- The pointers to the registers that are not `NULL`. -/
def DeviceContext.registers (c : DeviceContext) : List Nat :=
  c.dmaChannelRegs.toList ++ c.pwmRegs.toList ++ c.cmPwmRegs.toList

/-- A list that can be prepared: no registers have been mapped before, and either none are mapped
or the list is complete; and no DMA buffer is allocated while there is one. -/
def Ready (s : Device) : Action → Prop
  | .prepareHardware resources =>
    s.ctx.registers = [] ∧ (mapsRegisters resources → complete resources) ∧
      allocatesHeld s.ctx.dmaBuffer.isSome 0 resources = false
  | _ => True

instance (s : Device) (a : Action) : Decidable (Ready s a) := by
  cases a <;> unfold Ready <;> infer_instance

/-! ## One entry -/

namespace Device

variable (s : Device)

/-- The three ways in which a region is mapped or not. -/
theorem mapRegion_cases (size length : Nat) (maps : Bool)
    (store : DeviceContext → Option Nat → DeviceContext)
    (storePa : DeviceContext → DeviceContext) :
    (length < size ∧
      s.mapRegion size length maps store storePa = (.deviceConfigurationError, s)) ∨
    (size ≤ length ∧ maps = false ∧ s.mapRegion size length maps store storePa =
      (.insufficientResources, { s with ctx := store s.ctx none })) ∨
    (size ≤ length ∧ maps = true ∧ s.mapRegion size length maps store storePa =
      (.success, { s with
        ctx := storePa (store s.ctx (some s.mappings.next))
        mappings := s.mappings.acquire s.mappings.next })) := by
  rcases Nat.lt_or_ge length size with h | h
  · exact .inl ⟨h, by rw [mapRegion, if_pos h]⟩
  · refine .inr ?_
    rw [mapRegion, if_neg (Nat.not_lt.2 h)]
    cases maps with
    | false => exact .inl ⟨h, rfl, rfl⟩
    | true => exact .inr ⟨h, rfl, rfl⟩

theorem mapRegion_success_iff (size length : Nat) (maps : Bool)
    (store : DeviceContext → Option Nat → DeviceContext)
    (storePa : DeviceContext → DeviceContext) :
    (s.mapRegion size length maps store storePa).1 = .success ↔
      (decide (size ≤ length) && maps) = true := by
  rcases s.mapRegion_cases size length maps store storePa with ⟨h, he⟩ | ⟨h, hm, he⟩ | ⟨h, hm, he⟩
  · rw [he]
    simp [Nat.not_le.2 h]
  · rw [he, hm]
    simp
  · rw [he, hm]
    simp [h]

/-- **A memory entry is prepared exactly when it is good.** -/
theorem prepareMemory_success_iff (k : Nat) (start : BitVec 64) (length : Nat) (maps : Bool) :
    (s.prepareMemory k start length maps).1 = .success ↔
      (Resource.memory start length maps).good k := by
  match k with
  | 0 => exact s.mapRegion_success_iff ..
  | 1 => exact s.mapRegion_success_iff ..
  | 2 => exact ⟨fun _ => rfl, fun _ => rfl⟩
  | 3 => exact ⟨fun _ => rfl, fun _ => rfl⟩
  | 4 => exact s.mapRegion_success_iff ..
  | k + 5 => simp [prepareMemory, Resource.good, Resource.regionSize]

/-- **An entry is prepared exactly when it is good.** -/
theorem prepareResource_success_iff (r : Resource) (n : Counts) :
    (s.prepareResource r n).1 = .success ↔ r.good n.memoryResources := by
  cases r with
  | memory start length maps =>
    rw [← s.prepareMemory_success_iff n.memoryResources start length maps, prepareResource]
    split
    · next h => simp [h]
    · next st s' hne h => simp [h]
  | interrupt => exact ⟨fun _ => rfl, fun _ => rfl⟩
  | dma channel requestLine transferWidth grantsBuffer grantsCb =>
    by_cases hline : requestLine = dmaDreqPwm <;> by_cases hwidth : transferWidth = width32Bits <;>
      cases hb : s.ctx.dmaBuffer <;> cases grantsBuffer <;> cases grantsCb <;>
      simp [prepareResource, prepareDma, Resource.good, hline, hwidth, hb, allocateDmaBuffer,
        allocateBuffer, allocateCb, freeBuffer]
  | other => exact iff_of_false nofun nofun

/-- A memory entry leaves everything but the mappings and the context alone. -/
theorem prepareMemory_frame (k : Nat) (start : BitVec 64) (length : Nat) (maps : Bool) :
    let s' := (s.prepareMemory k start length maps).2
    s'.ctx.dmaBuffer = s.ctx.dmaBuffer ∧ s'.ctx.dmaCb = s.ctx.dmaCb ∧ s'.buffers = s.buffers ∧
      s'.controlBlocks = s.controlBlocks ∧ s'.overlaps = s.overlaps ∧
      s'.failedAssertions = s.failedAssertions := by
  have hregion : ∀ size store storePa,
      (∀ c p, (store c p).dmaBuffer = c.dmaBuffer ∧ (store c p).dmaCb = c.dmaCb) →
      (∀ c, (storePa c).dmaBuffer = c.dmaBuffer ∧ (storePa c).dmaCb = c.dmaCb) →
      let s' := (s.mapRegion size length maps store storePa).2
      s'.ctx.dmaBuffer = s.ctx.dmaBuffer ∧ s'.ctx.dmaCb = s.ctx.dmaCb ∧ s'.buffers = s.buffers ∧
        s'.controlBlocks = s.controlBlocks ∧ s'.overlaps = s.overlaps ∧
        s'.failedAssertions = s.failedAssertions := by
    intro size store storePa hstore hstorePa
    rcases s.mapRegion_cases size length maps store storePa with ⟨-, h⟩ | ⟨-, -, h⟩ | ⟨-, -, h⟩
    · rw [h]
      simp
    · rw [h]
      simp [hstore]
    · rw [h]
      simp [hstore, hstorePa]
  match k with
  | 0 => exact hregion _ _ _ (fun _ _ => ⟨rfl, rfl⟩) fun _ => ⟨rfl, rfl⟩
  | 1 => exact hregion _ _ _ (fun _ _ => ⟨rfl, rfl⟩) fun _ => ⟨rfl, rfl⟩
  | 2 => exact ⟨rfl, rfl, rfl, rfl, rfl, rfl⟩
  | 3 => exact ⟨rfl, rfl, rfl, rfl, rfl, rfl⟩
  | 4 => exact hregion _ _ _ (fun _ _ => ⟨rfl, rfl⟩) fun _ => ⟨rfl, rfl⟩
  | k + 5 => exact ⟨rfl, rfl, rfl, rfl, rfl, rfl⟩

/-- What a memory entry leaves as it is, an entry does that is for memory. -/
theorem prepareResource_memory (n : Counts) (start : BitVec 64) (length : Nat) (maps : Bool) :
    (s.prepareResource (.memory start length maps) n).2.2 =
      (s.prepareMemory n.memoryResources start length maps).2 := by
  rw [prepareResource]
  split
  · next h => rw [h]
  · next h => rw [h]

/-- A good entry is counted. -/
theorem prepareResource_counts {r : Resource} {n : Counts}
    (h : (s.prepareResource r n).1 = .success) :
    (s.prepareResource r n).2.1 =
      { memoryResources := n.memoryResources + r.isMemory.toNat
        interruptResources := n.interruptResources + r.isInterrupt.toNat
        dmaResources := n.dmaResources + r.isDma.toNat } := by
  cases r with
  | memory start length maps =>
    rw [prepareResource] at h ⊢
    split at h
    · simp [Resource.isMemory, Resource.isInterrupt, Resource.isDma]
    · next hne he => exact absurd h hne
  | interrupt => rfl
  | dma channel requestLine transferWidth grantsBuffer grantsCb =>
    rw [prepareResource] at h ⊢
    split at h
    · simp [Resource.isMemory, Resource.isInterrupt, Resource.isDma]
    · next he =>
      rw [prepareDma] at he
      split_ifs at he <;> cases he <;> cases h
  | other => cases h

/-- The assertion fails exactly when a buffer is asked for while there is one. -/
theorem prepareResource_failedAssertions (r : Resource) (n : Counts) :
    (s.prepareResource r n).2.2.failedAssertions =
      s.failedAssertions + (r.isPwmDma && s.ctx.dmaBuffer.isSome).toNat := by
  cases r with
  | memory start length maps =>
    rw [prepareResource_memory]
    exact (s.prepareMemory_frame ..).2.2.2.2.2
  | interrupt => rfl
  | dma channel requestLine transferWidth grantsBuffer grantsCb =>
    by_cases hline : requestLine = dmaDreqPwm <;> by_cases hwidth : transferWidth = width32Bits <;>
      cases hb : s.ctx.dmaBuffer <;> cases grantsBuffer <;> cases grantsCb <;>
      simp [prepareResource, prepareDma, Resource.isPwmDma, hline, hwidth, hb, allocateDmaBuffer,
        allocateBuffer, allocateCb, freeBuffer]
  | other => rfl

/-- After a good entry there is a buffer when there was one, or the entry is for one. -/
theorem prepareResource_dmaBuffer {r : Resource} {n : Counts}
    (h : (s.prepareResource r n).1 = .success) :
    (s.prepareResource r n).2.2.ctx.dmaBuffer.isSome = (s.ctx.dmaBuffer.isSome || r.isDma) := by
  cases r with
  | memory start length maps =>
    rw [prepareResource_memory, (s.prepareMemory_frame ..).1]
    exact (Bool.or_false _).symm
  | interrupt => exact (Bool.or_false _).symm
  | dma channel requestLine transferWidth grantsBuffer grantsCb =>
    revert h
    by_cases hline : requestLine = dmaDreqPwm <;> by_cases hwidth : transferWidth = width32Bits <;>
      cases hb : s.ctx.dmaBuffer <;> cases grantsBuffer <;> cases grantsCb <;>
      simp [prepareResource, prepareDma, Resource.isDma, hline, hwidth, hb, allocateDmaBuffer,
        allocateBuffer, allocateCb, freeBuffer]
  | other => cases h

/-! ## The loop -/

/-- **The loop ends well exactly when every entry is good**, and has counted them then. -/
theorem prepareResources_success_iff :
    ∀ (rs : List Resource) (n : Counts) (s : Device),
      (prepareResources rs n s).1 = .success ↔ allGood n.memoryResources rs := by
  intro rs
  induction rs with
  | nil => exact fun _ _ => iff_of_true rfl rfl
  | cons r rs ih =>
    intro n s
    rw [prepareResources, allGood, Bool.and_eq_true, ← s.prepareResource_success_iff r n]
    split
    · next n' s' h =>
      have hcounts := s.prepareResource_counts (by rw [h])
      rw [h] at hcounts
      rw [ih n' s', h, show n' = _ from hcounts]
      exact ⟨fun hgood => ⟨rfl, hgood⟩, And.right⟩
    · next status n' s' hne h =>
      rw [h]
      exact iff_of_false hne fun hgood => hne hgood.1

theorem prepareResources_counts :
    ∀ (rs : List Resource) (n : Counts) (s : Device), (prepareResources rs n s).1 = .success →
      (prepareResources rs n s).2.1 =
        { memoryResources := n.memoryResources + rs.countP Resource.isMemory
          interruptResources := n.interruptResources + rs.countP Resource.isInterrupt
          dmaResources := n.dmaResources + rs.countP Resource.isDma } := by
  intro rs
  induction rs with
  | nil => exact fun _ _ _ => rfl
  | cons r rs ih =>
    intro n s
    rw [prepareResources]
    split
    · next n' s' h =>
      intro hsuccess
      have hcounts := s.prepareResource_counts (by rw [h])
      rw [h] at hcounts
      rw [ih n' s' hsuccess, show n' = _ from hcounts]
      cases r <;>
        simp [List.countP_cons, Resource.isMemory, Resource.isInterrupt, Resource.isDma] <;> omega
    · next status n' s' hne h => exact fun hsuccess => absurd hsuccess hne

theorem check_success_iff (n : Counts) (status : Status) :
    n.check status = .success ↔ status = .success ∧ n.memoryResources = 5 ∧
      n.interruptResources = 1 ∧ n.dmaResources = 1 := by
  rw [Counts.check]
  by_cases hm : n.memoryResources = 5 <;> by_cases hi : n.interruptResources = 1 <;>
    by_cases hd : n.dmaResources = 1 <;> simp [hm, hi, hd]

/-- **A prepare succeeds exactly when the list is complete.** -/
theorem check_prepareResources_iff (rs : List Resource) :
    (prepareResources rs {} s).2.1.check (prepareResources rs {} s).1 = .success ↔
      complete rs := by
  have hgood := prepareResources_success_iff rs {} s
  have hcounts := prepareResources_counts rs {} s
  rw [check_success_iff, complete]
  constructor
  · rintro ⟨hstatus, hm, hi, hd⟩
    rw [hcounts hstatus] at hm hi hd
    simp_all
  · intro hc
    simp only [Bool.and_eq_true, decide_eq_true_eq] at hc
    obtain ⟨⟨⟨hall, hm⟩, hi⟩, hd⟩ := hc
    have hstatus := hgood.2 hall
    rw [hcounts hstatus]
    simp_all

/-- What a prepare leaves behind: the state after the loop, released when it has failed. -/
theorem prepareHardware_snd (rs : List Resource) :
    (s.prepareHardware rs).2 = if complete rs then (prepareResources rs {} s).2.2
      else (prepareResources rs {} s).2.2.releaseHardware := by
  have h := s.check_prepareResources_iff rs
  rw [prepareHardware]
  by_cases hc : complete rs
  · rw [if_pos hc]
    exact congrArg Prod.snd (if_pos (h.2 hc))
  · rw [if_neg hc]
    exact congrArg Prod.snd (if_neg fun hs => hc (h.1 hs))

theorem releaseHardware_eq :
    s.releaseHardware = { s with mappings := s.mappings.releaseAll s.ctx.registers } := by
  rw [releaseHardware]
  cases hd : s.ctx.dmaChannelRegs <;> cases hp : s.ctx.pwmRegs <;> cases hc : s.ctx.cmPwmRegs <;>
    simp [mmUnmapIoSpace, DeviceContext.registers, hd, hp, hc, Ledger.releaseAll]

/-! ## What the loop keeps -/

/-- What is mapped is what the context points to, and of the registers those are mapped that so
many memory entries are for. -/
structure RegionsInv (memoryResources : Nat) (s : Device) : Prop where
  numbered : s.mappings.Numbered
  mappings : s.mappings.Live s.ctx.registers
  dmaChannelRegs : s.ctx.dmaChannelRegs.isSome = decide (0 < memoryResources)
  pwmRegs : s.ctx.pwmRegs.isSome = decide (1 < memoryResources)
  cmPwmRegs : s.ctx.cmPwmRegs.isSome = decide (4 < memoryResources)

/-- The buffers that are held are those that the context points to, both or none. -/
structure BuffersInv (s : Device) : Prop where
  numbered : s.buffers.Numbered ∧ s.controlBlocks.Numbered
  buffers : s.buffers.Live s.ctx.dmaBuffer.toList
  controlBlocks : s.controlBlocks.Live s.ctx.dmaCb.toList
  both : s.ctx.dmaCb.isSome = s.ctx.dmaBuffer.isSome
  overlaps : s.overlaps = 0
  failedAssertions : s.failedAssertions = 0

variable {s}

/-- A region is mapped for a pointer that is `NULL`; when it is not mapped nothing changes. -/
theorem RegionsInv.mapRegion {k size length : Nat} {maps : Bool}
    {store : DeviceContext → Option Nat → DeviceContext} {storePa : DeviceContext → DeviceContext}
    (h : RegionsInv k s) (hnone : store s.ctx none = s.ctx)
    (hregisters : ∀ a, (s.ctx.registers.cons a).Perm (storePa (store s.ctx (some a))).registers)
    (hsome : ∀ a, let c := storePa (store s.ctx (some a))
      c.dmaChannelRegs.isSome = decide (0 < k + 1) ∧ c.pwmRegs.isSome = decide (1 < k + 1) ∧
        c.cmPwmRegs.isSome = decide (4 < k + 1)) :
    let x := s.mapRegion size length maps store storePa
    RegionsInv (k + (decide (x.1 = .success)).toNat) x.2 := by
  rcases s.mapRegion_cases size length maps store storePa with ⟨-, he⟩ | ⟨-, -, he⟩ | ⟨-, -, he⟩
  · rw [he]
    exact h
  · rw [he, hnone]
    exact h
  · rw [he]
    obtain ⟨hd, hp, hc⟩ := hsome s.mappings.next
    exact ⟨h.numbered.acquire, h.mappings.acquire.of_perm (hregisters _), hd, hp, hc⟩

/-- A memory entry that is good maps the next region; one that is not maps nothing. -/
theorem RegionsInv.prepareMemory {k : Nat} (h : RegionsInv k s) (start : BitVec 64) (length : Nat)
    (maps : Bool) :
    RegionsInv (k + (decide ((s.prepareMemory k start length maps).1 = .success)).toNat)
      (s.prepareMemory k start length maps).2 := by
  have hd := h.dmaChannelRegs
  have hp := h.pwmRegs
  have hc := h.cmPwmRegs
  match k with
  | 0 =>
    have hnull : s.ctx.dmaChannelRegs = none := by simpa using hd
    refine h.mapRegion ?_ (fun a => ?_) fun a => ⟨rfl, hp, hc⟩
    · rw [← hnull]
    · simp [DeviceContext.registers, hnull]
  | 1 =>
    have hnull : s.ctx.pwmRegs = none := by simpa using hp
    refine h.mapRegion ?_ (fun a => ?_) fun a => ⟨hd, rfl, hc⟩
    · rw [← hnull]
    · simpa [DeviceContext.registers, hnull] using List.perm_middle.symm
  | 2 => exact ⟨h.numbered, h.mappings, hd, hp, hc⟩
  | 3 => exact ⟨h.numbered, h.mappings, hd, hp, hc⟩
  | 4 =>
    have hnull : s.ctx.cmPwmRegs = none := by simpa using hc
    refine h.mapRegion ?_ (fun a => ?_) fun a => ⟨hd, hp, rfl⟩
    · rw [← hnull]
    · simpa [DeviceContext.registers, hnull] using
      (List.perm_append_singleton a (s.ctx.dmaChannelRegs.toList ++ s.ctx.pwmRegs.toList)).symm
  | k + 5 => exact h

/-- An entry for the DMA channel leaves the registers alone. -/
theorem prepareDma_frame (s : Device) (channel requestLine transferWidth : Nat)
    (grantsBuffer grantsCb : Bool) :
    let s' := (s.prepareDma channel requestLine transferWidth grantsBuffer grantsCb).2.1
    s'.mappings = s.mappings ∧ s'.ctx.dmaChannelRegs = s.ctx.dmaChannelRegs ∧
      s'.ctx.pwmRegs = s.ctx.pwmRegs ∧ s'.ctx.cmPwmRegs = s.ctx.cmPwmRegs := by
  by_cases hline : requestLine = dmaDreqPwm <;> by_cases hwidth : transferWidth = width32Bits <;>
    cases hb : s.ctx.dmaBuffer <;> cases grantsBuffer <;> cases grantsCb <;>
    simp [prepareDma, hline, hwidth, hb, allocateDmaBuffer, allocateBuffer, allocateCb, freeBuffer]

theorem prepareResource_dma (s : Device) (n : Counts) (channel requestLine transferWidth : Nat)
    (grantsBuffer grantsCb : Bool) :
    (s.prepareResource (.dma channel requestLine transferWidth grantsBuffer grantsCb) n).2.2 =
      (s.prepareDma channel requestLine transferWidth grantsBuffer grantsCb).2.1 := by
  rw [prepareResource]
  split
  · next h => rw [h]
  · next h => rw [h]

/-- **An entry keeps the regions**: it maps the next one or none. -/
theorem RegionsInv.prepareResource {n : Counts} (h : RegionsInv n.memoryResources s)
    (r : Resource) :
    let x := s.prepareResource r n
    RegionsInv (n.memoryResources + (r.isMemory && decide (x.1 = .success)).toNat) x.2.2 := by
  cases r with
  | memory start length maps =>
    have hm := h.prepareMemory start length maps
    have hiff := s.prepareResource_success_iff (.memory start length maps) n
    rw [← s.prepareMemory_success_iff n.memoryResources start length maps] at hiff
    intro x
    rw [show x.2.2 = _ from s.prepareResource_memory n start length maps]
    simpa [x, Resource.isMemory, hiff] using hm
  | interrupt => exact h
  | dma channel requestLine transferWidth grantsBuffer grantsCb =>
    intro x
    rw [show x.2.2 = _ from s.prepareResource_dma ..]
    obtain ⟨hm, hd, hp, hc⟩ :=
      s.prepareDma_frame channel requestLine transferWidth grantsBuffer grantsCb
    refine ⟨hm ▸ h.numbered, ?_, hd ▸ h.dmaChannelRegs, hp ▸ h.pwmRegs, hc ▸ h.cmPwmRegs⟩
    rw [hm, DeviceContext.registers, hd, hp, hc]
    exact h.mappings
  | other => exact h

/-- What the allocation does for a context that has no buffer, as far as it is granted. -/
theorem allocateDmaBuffer_of_none (s : Device) (hnone : s.ctx.dmaBuffer = none)
    (grantsBuffer grantsCb : Bool) :
    (s.allocateDmaBuffer grantsBuffer grantsCb).2 =
      if grantsBuffer then
        let s' := { s with
          ctx := { s.ctx with dmaBuffer := some s.buffers.next, dmaControlDataSize := pageSize }
          buffers := s.buffers.acquire s.buffers.next
          overlaps := s.overlaps + if s.buffers.outstanding = 0 then 0 else 1 }
        if grantsCb then s'.allocateCb true
        else { s' with
          ctx := { s'.ctx with dmaBuffer := none, dmaCb := none }
          buffers := s'.buffers.release s.buffers.next }
      else s := by
  cases grantsBuffer <;> cases grantsCb <;>
    simp [allocateDmaBuffer, allocateBuffer, allocateCb, freeBuffer, hnone, Ledger.releaseAll]
  all_goals rw [← hnone]

/-- **Buffers are allocated for a context that has none**, both or none. -/
theorem BuffersInv.allocateDmaBuffer (h : BuffersInv s) (hnone : s.ctx.dmaBuffer = none)
    (grantsBuffer grantsCb : Bool) : BuffersInv (s.allocateDmaBuffer grantsBuffer grantsCb).2 := by
  have hcb : s.ctx.dmaCb = none := by
    have hboth := h.both
    rw [hnone] at hboth
    simpa using hboth
  have hb : s.buffers.Live [] := by simpa [hnone] using h.buffers
  have hc : s.controlBlocks.Live [] := by simpa [hcb] using h.controlBlocks
  have hbs : s.buffers.outstanding = 0 := hb.outstanding
  have hcs : s.controlBlocks.outstanding = 0 := hc.outstanding
  obtain ⟨hn, hm⟩ := h.numbered
  rw [s.allocateDmaBuffer_of_none hnone]
  split
  · split
    · exact {
        numbered := ⟨hn.acquire, hm.acquire⟩
        buffers := hb.acquire
        controlBlocks := hc.acquire
        both := rfl
        overlaps := by simp [allocateCb, hcs, h.overlaps]
        failedAssertions := h.failedAssertions }
    · exact {
        numbered := ⟨hn.acquire.release _, hm⟩
        buffers := hb.acquire.release
        controlBlocks := hc
        both := rfl
        overlaps := by simp [h.overlaps]
        failedAssertions := h.failedAssertions }
  · exact h

theorem BuffersInv.of_frame {s' : Device} (h : BuffersInv s)
    (hb : s'.ctx.dmaBuffer = s.ctx.dmaBuffer) (hcb : s'.ctx.dmaCb = s.ctx.dmaCb)
    (hbs : s'.buffers = s.buffers) (hcbs : s'.controlBlocks = s.controlBlocks)
    (ho : s'.overlaps = s.overlaps) (hf : s'.failedAssertions = s.failedAssertions) :
    BuffersInv s' where
  numbered := by rw [hbs, hcbs]; exact h.numbered
  buffers := by rw [hb, hbs]; exact h.buffers
  controlBlocks := by rw [hcb, hcbs]; exact h.controlBlocks
  both := by rw [hb, hcb]; exact h.both
  overlaps := ho ▸ h.overlaps
  failedAssertions := hf ▸ h.failedAssertions

/-- **An entry keeps the buffers**, unless it asks for some while there are some. -/
theorem BuffersInv.prepareResource (h : BuffersInv s) (r : Resource) (n : Counts)
    (hheld : (r.isPwmDma && s.ctx.dmaBuffer.isSome) = false) :
    BuffersInv (s.prepareResource r n).2.2 := by
  cases r with
  | memory start length maps =>
    rw [prepareResource_memory]
    obtain ⟨hb, hcb, hbs, hcbs, ho, hf⟩ :=
      s.prepareMemory_frame n.memoryResources start length maps
    exact h.of_frame hb hcb hbs hcbs ho hf
  | interrupt => exact h
  | dma channel requestLine transferWidth grantsBuffer grantsCb =>
    rw [prepareResource_dma, prepareDma]
    have h' : BuffersInv { s with ctx := { s.ctx with
        dmaChannel := channel, dmaDreq := requestLine, dmaTransferWidth := transferWidth } } :=
      h.of_frame rfl rfl rfl rfl rfl rfl
    split_ifs with hline hwidth
    · exact h'
    · exact h'
    · have hpwm : (Resource.dma channel requestLine transferWidth grantsBuffer grantsCb).isPwmDma :=
        by simpa [Resource.isPwmDma] using ⟨Decidable.not_not.1 hline, Decidable.not_not.1 hwidth⟩
      rw [hpwm, Bool.true_and] at hheld
      exact h'.allocateDmaBuffer (by simpa using hheld) grantsBuffer grantsCb
  | other => exact h

/-- **The loop keeps the buffers** unless it allocates some while there are some. -/
theorem BuffersInv.prepareResources :
    ∀ (rs : List Resource) {n : Counts} {s : Device}, BuffersInv s →
      allocatesHeld s.ctx.dmaBuffer.isSome n.memoryResources rs = false →
      BuffersInv (Device.prepareResources rs n s).2.2 := by
  intro rs
  induction rs with
  | nil => exact fun h _ => h
  | cons r rs ih =>
    intro n s h hheld
    rw [allocatesHeld, Bool.or_eq_false_iff] at hheld
    have hr := h.prepareResource r n hheld.1
    rw [Device.prepareResources]
    split
    · next n' s' he =>
      have hsuccess : (s.prepareResource r n).1 = .success := by rw [he]
      have hcounts := s.prepareResource_counts hsuccess
      have hbuffer := s.prepareResource_dmaBuffer hsuccess
      have hgood := (s.prepareResource_success_iff r n).1 hsuccess
      rw [he] at hcounts hbuffer hr
      refine ih hr ?_
      rw [show n' = _ from hcounts, show s'.ctx.dmaBuffer.isSome = _ from hbuffer]
      simpa [hgood] using hheld.2
    · next he =>
      rw [he] at hr
      exact hr

/-- **The loop keeps the regions.** -/
theorem RegionsInv.prepareResources :
    ∀ (rs : List Resource) {n : Counts} {s : Device}, RegionsInv n.memoryResources s →
      ∃ k, RegionsInv k (Device.prepareResources rs n s).2.2 ∧ n.memoryResources ≤ k ∧
        ((Device.prepareResources rs n s).1 = .success →
          k = (Device.prepareResources rs n s).2.1.memoryResources) := by
  intro rs
  induction rs with
  | nil => exact fun h => ⟨_, h, Nat.le_refl _, fun _ => rfl⟩
  | cons r rs ih =>
    intro n s h
    have hr := h.prepareResource r
    rw [Device.prepareResources]
    split
    · next n' s' he =>
      have hcounts := s.prepareResource_counts (r := r) (n := n) (by rw [he])
      rw [he] at hcounts hr
      have hn' : n'.memoryResources = n.memoryResources + r.isMemory.toNat := by
        rw [show n' = _ from hcounts]
      obtain ⟨k, hk, hle, hsuccess⟩ := ih (n := n') (s := s') (by simpa [hn'] using hr)
      exact ⟨k, hk, by omega, hsuccess⟩
    · next he =>
      rw [he] at hr
      exact ⟨_, hr, Nat.le_add_right .., fun hsuccess => absurd hsuccess ‹_›⟩

/-- After a loop that ends well there is a buffer when there was one, or one was asked for. -/
theorem prepareResources_dmaBuffer :
    ∀ (rs : List Resource) (n : Counts) (s : Device), (prepareResources rs n s).1 = .success →
      (prepareResources rs n s).2.2.ctx.dmaBuffer.isSome =
        (s.ctx.dmaBuffer.isSome || rs.any Resource.isDma) := by
  intro rs
  induction rs with
  | nil => exact fun n s _ => (Bool.or_false _).symm
  | cons r rs ih =>
    intro n s
    rw [prepareResources]
    split
    · next n' s' h =>
      intro hsuccess
      have hbuffer := s.prepareResource_dmaBuffer (r := r) (n := n) (by rw [h])
      rw [h] at hbuffer
      rw [ih n' s' hsuccess, show s'.ctx.dmaBuffer.isSome = _ from hbuffer, List.any_cons,
        Bool.or_assoc]
    · next hne h => exact fun hsuccess => absurd hsuccess hne

theorem RegionsInv.registers_eq_nil (h : RegionsInv 0 s) : s.ctx.registers = [] := by
  have hd : s.ctx.dmaChannelRegs = none := by simpa using h.dmaChannelRegs
  have hp : s.ctx.pwmRegs = none := by simpa using h.pwmRegs
  have hc : s.ctx.cmPwmRegs = none := by simpa using h.cmPwmRegs
  simp [DeviceContext.registers, hd, hp, hc]

/-- As long as no registers are mapped, an entry that is not for some changes none. -/
theorem registers_eq_nil_of_not_mapsRegisters :
    ∀ (rs : List Resource) (n : Counts) (s : Device), n.memoryResources = 0 →
      RegionsInv 0 s → mapsRegisters rs = false →
      (prepareResources rs n s).2.2.ctx.registers = [] := by
  intro rs
  induction rs with
  | nil => exact fun _ _ _ h _ => h.registers_eq_nil
  | cons r rs ih =>
    intro n s hn h hmaps
    rw [mapsRegisters] at hmaps
    have hr := (hn ▸ h : RegionsInv n.memoryResources s).prepareResource r
    rw [prepareResources]
    split
    · next n' s' he =>
      have hgood := (s.prepareResource_success_iff r n).1 (by rw [he])
      have hcounts := s.prepareResource_counts (r := r) (n := n) (by rw [he])
      rw [he] at hcounts hr
      rw [hn] at hgood
      simp only [hgood, Bool.true_and, Bool.or_eq_false_iff] at hmaps
      refine ih n' s' ?_ (by simpa [hn, hmaps.1] using hr) hmaps.2
      rw [show n' = _ from hcounts, hn, hmaps.1]
      rfl
    · next status n' s' hne he =>
      rw [he] at hr
      have hst : decide (status = .success) = false := decide_eq_false hne
      exact RegionsInv.registers_eq_nil (by simpa [hn, hst] using hr)

end Device

/-! ## Runs -/

/-- What holds in every state of a run whose prepares are ready. -/
structure Inv (s : Device) : Prop where
  numbered : s.mappings.Numbered ∧ s.buffers.Numbered ∧ s.controlBlocks.Numbered
  /-- nothing is mapped but between a prepare and the release -/
  mappings : s.mappings.Live (if s.phase = .prepared then s.ctx.registers else [])
  buffers : s.phase ≠ .cleanedUp → s.BuffersInv
  settled : s.phase = .cleanedUp → s.buffers.Settled ∧ s.controlBlocks.Settled
  overlaps : s.overlaps = 0
  failedAssertions : s.failedAssertions = 0
  /-- no prepare has mapped anything, or one has been complete -/
  whole : s.ctx.registers = [] ∨
    (s.ctx.pwmRegs.isSome ∧ s.ctx.cmPwmRegs.isSome) ∧ s.ctx.dmaBuffer.isSome

namespace Inv

variable {s : Device}

theorem start : Inv Device.start where
  numbered := ⟨.empty, .empty, .empty⟩
  mappings := .empty
  buffers _ :=
    { numbered := ⟨.empty, .empty⟩
      buffers := .empty
      controlBlocks := .empty
      both := rfl
      overlaps := rfl
      failedAssertions := rfl }
  settled h := nomatch h
  overlaps := rfl
  failedAssertions := rfl
  whole := .inl rfl

theorem regionsInv (h : Inv s) (hphase : s.phase = .released) (hregisters : s.ctx.registers = []) :
    s.RegionsInv 0 := by
  have hlive := h.mappings
  simp only [DeviceContext.registers, List.append_eq_nil_iff, Option.toList_eq_nil_iff]
    at hregisters
  obtain ⟨⟨hd, hp⟩, hc⟩ := hregisters
  refine ⟨h.numbered.1, ?_, by rw [hd]; rfl, by rw [hp]; rfl, by rw [hc]; rfl⟩
  simpa [hphase, DeviceContext.registers, hd, hp, hc] using hlive

/-- A prepare that is ready leaves what the loop has left: when it fails nothing is mapped. -/
theorem prepareHardware_snd (h : Inv s) {resources : List Resource} (hphase : s.phase = .released)
    (hready : Ready s (.prepareHardware resources)) :
    (s.prepareHardware resources).2 = (Device.prepareResources resources {} s).2.2 := by
  obtain ⟨hregisters, hmaps, -⟩ := hready
  rw [s.prepareHardware_snd]
  by_cases hcomplete : complete resources
  · rw [if_pos hcomplete]
  · have hnone : mapsRegisters resources = false := by
      cases hm : mapsRegisters resources with
      | false => rfl
      | true => exact absurd (hmaps hm) hcomplete
    rw [if_neg hcomplete, Device.releaseHardware_eq,
      Device.registers_eq_nil_of_not_mapsRegisters resources {} s rfl
        (h.regionsInv hphase hregisters) hnone]
    rfl

/-- A prepare that is ready maps nothing, or everything. -/
theorem whole_prepareHardware (h : Inv s) {resources : List Resource}
    (hphase : s.phase = .released) (hready : Ready s (.prepareHardware resources)) :
    let c := (Device.prepareResources resources {} s).2.2.ctx
    c.registers = [] ∨ (c.pwmRegs.isSome ∧ c.cmPwmRegs.isSome) ∧ c.dmaBuffer.isSome := by
  obtain ⟨hregisters, hmaps, -⟩ := hready
  have hregions := h.regionsInv hphase hregisters
  cases hm : mapsRegisters resources with
  | false =>
    exact .inl (Device.registers_eq_nil_of_not_mapsRegisters resources {} s rfl hregions hm)
  | true =>
    have hcheck := (s.check_prepareResources_iff resources).2 (hmaps hm)
    obtain ⟨hsuccess, hfive, -, hone⟩ := (Device.check_success_iff _ _).1 hcheck
    obtain ⟨k, hk, -, hcount⟩ :=
      Device.RegionsInv.prepareResources resources (n := {}) hregions
    rw [hcount hsuccess, hfive] at hk
    have hdma : resources.any Resource.isDma = true := by
      rw [Device.prepareResources_counts resources {} s hsuccess] at hone
      have hpos : 0 < resources.countP Resource.isDma := by
        simp only [Nat.zero_add] at hone
        omega
      obtain ⟨r, hr, hisDma⟩ := List.countP_pos_iff.1 hpos
      exact List.any_eq_true.2 ⟨r, hr, hisDma⟩
    refine .inr ⟨⟨hk.pwmRegs, hk.cmPwmRegs⟩, ?_⟩
    rw [Device.prepareResources_dmaBuffer resources {} s hsuccess, hdma, Bool.or_true]

/-- **A prepare that is ready keeps the invariant.** -/
theorem prepareHardware (h : Inv s) {resources : List Resource} (hphase : s.phase = .released)
    (hready : Ready s (.prepareHardware resources)) :
    Inv (effect s (.prepareHardware resources)) := by
  have hsnd := h.prepareHardware_snd hphase hready
  have hb := (h.buffers (by rw [hphase]; decide)).prepareResources resources (n := {})
    hready.2.2
  obtain ⟨k, hk, -⟩ := Device.RegionsInv.prepareResources resources (n := {})
    (h.regionsInv hphase hready.1)
  have hwhole := h.whole_prepareHardware hphase hready
  rw [← hsnd] at hb hk hwhole
  exact {
    numbered := ⟨hk.numbered, hb.numbered⟩
    mappings := hk.mappings
    buffers _ := hb.of_frame rfl rfl rfl rfl rfl rfl
    settled hc := nomatch hc
    overlaps := hb.overlaps
    failedAssertions := hb.failedAssertions
    whole := hwhole }

theorem releaseHardware (h : Inv s) (hphase : s.phase = .prepared) :
    Inv (effect s .releaseHardware) := by
  have hlive := h.mappings
  rw [if_pos hphase] at hlive
  have hb := h.buffers (by rw [hphase]; decide)
  rw [effect, Device.releaseHardware_eq]
  exact {
    numbered := ⟨h.numbered.1.releaseAll _, h.numbered.2⟩
    mappings := hlive.settled
    buffers _ := hb.of_frame rfl rfl rfl rfl rfl rfl
    settled hc := nomatch hc
    overlaps := h.overlaps
    failedAssertions := h.failedAssertions
    whole := h.whole }

theorem onDeviceContextCleanup (h : Inv s) (hphase : s.phase = .released) :
    Inv (effect s .onDeviceContextCleanup) := by
  have hlive := h.mappings
  have hb := h.buffers (by rw [hphase]; decide)
  exact {
    numbered := ⟨h.numbered.1, h.numbered.2.1.releaseAll _, h.numbered.2.2.releaseAll _⟩
    mappings := by
      rw [if_neg (by rw [hphase]; decide)] at hlive
      exact hlive
    buffers hc := absurd rfl hc
    settled _ := ⟨hb.buffers.settled, hb.controlBlocks.settled⟩
    overlaps := h.overlaps
    failedAssertions := h.failedAssertions
    whole := h.whole }

theorem sound (h : Inv s) : Sound s where
  distinct := ⟨h.numbered.1.nodup, h.numbered.2.1.nodup, h.numbered.2.2.nodup⟩
  unmapped hphase := by
    have hlive := h.mappings
    rw [if_neg hphase] at hlive
    exact hlive
  freed := h.settled
  released := by
    refine ⟨⟨_, h.mappings⟩, ?_⟩
    by_cases hphase : s.phase = .cleanedUp
    · exact ⟨⟨[], (h.settled hphase).1⟩, [], (h.settled hphase).2⟩
    · exact ⟨⟨_, (h.buffers hphase).buffers⟩, _, (h.buffers hphase).controlBlocks⟩
  overlaps := h.overlaps
  failedAssertions := h.failedAssertions

end Inv

theorem inv_of_ready {s : Device} (h : hardwareMachine.Reach Ready s) : Inv s := by
  refine h.inv_guarded ?_ ?_
  · rintro _ rfl
    exact Inv.start
  · intro s a hinv hready henabled
    cases a with
    | prepareHardware resources => exact hinv.prepareHardware henabled hready
    | releaseHardware => exact hinv.releaseHardware henabled
    | onDeviceContextCleanup => exact hinv.onDeviceContextCleanup henabled

/-- **What is prepared only when it is ready stays sound**, in every state of every run. -/
theorem sound_of_ready {s : Device} (h : hardwareMachine.Reach Ready s) : Sound s :=
  (inv_of_ready h).sound

/-! ## Nothing less is enough -/

namespace Device

variable {s : Device}

theorem prepareResources_failedAssertions_le :
    ∀ (rs : List Resource) (n : Counts) (s : Device),
      s.failedAssertions ≤ (prepareResources rs n s).2.2.failedAssertions := by
  intro rs
  induction rs with
  | nil => exact fun _ _ => Nat.le_refl _
  | cons r rs ih =>
    intro n s
    have hr := s.prepareResource_failedAssertions r n
    rw [prepareResources]
    split
    · next n' s' h =>
      rw [h] at hr
      exact Nat.le_trans (Nat.le.intro hr.symm) (ih n' s')
    · next n' s' _ h =>
      rw [h] at hr
      exact Nat.le.intro hr.symm

/-- **Allocating buffers while there are some fails the assertion.** -/
theorem prepareResources_failedAssertions_lt :
    ∀ (rs : List Resource) (n : Counts) (s : Device),
      allocatesHeld s.ctx.dmaBuffer.isSome n.memoryResources rs →
      s.failedAssertions < (prepareResources rs n s).2.2.failedAssertions := by
  intro rs
  induction rs with
  | nil => exact fun _ _ h => nomatch h
  | cons r rs ih =>
    intro n s hheld
    have hr := s.prepareResource_failedAssertions r n
    rw [allocatesHeld, Bool.or_eq_true, Bool.and_eq_true (r.good _)] at hheld
    rw [prepareResources]
    cases hnow : r.isPwmDma && s.ctx.dmaBuffer.isSome with
    | true =>
      rw [hnow] at hr
      have hlt : s.failedAssertions < (s.prepareResource r n).2.2.failedAssertions := by
        rw [hr]
        exact Nat.lt_succ_self _
      split
      · next n' s' h =>
        rw [h] at hlt
        exact Nat.lt_of_lt_of_le hlt (prepareResources_failedAssertions_le rs n' s')
      · next h =>
        rw [h] at hlt
        exact hlt
    | false =>
      obtain ⟨hgood, hlater⟩ := hheld.resolve_left (by rw [hnow]; decide)
      rw [hnow] at hr
      have hsuccess := (s.prepareResource_success_iff r n).2 hgood
      have hcounts := s.prepareResource_counts hsuccess
      have hbuffer := s.prepareResource_dmaBuffer hsuccess
      split
      · next n' s' h =>
        rw [h] at hr hcounts hbuffer
        have hlt := ih n' s' (by
          rw [show n' = _ from hcounts, show s'.ctx.dmaBuffer.isSome = _ from hbuffer]
          exact hlater)
        exact Nat.lt_of_le_of_lt (Nat.le_of_eq hr.symm) hlt
      · next hne h =>
        rw [h] at hsuccess
        exact absurd hsuccess hne

/-- A complete list asks for buffers. -/
theorem allocatesHeld_of_allGood :
    ∀ (rs : List Resource) (k : Nat), allGood k rs → rs.any Resource.isDma →
      allocatesHeld true k rs := by
  intro rs
  induction rs with
  | nil => exact fun _ _ h => nomatch h
  | cons r rs ih =>
    intro k hgood hany
    rw [allGood, Bool.and_eq_true] at hgood
    rw [allocatesHeld, hgood.1]
    cases r with
    | dma channel requestLine transferWidth grantsBuffer grantsCb =>
      have hr := hgood.1
      simp only [Resource.good, Bool.and_eq_true] at hr
      simp [Resource.isPwmDma, hr.1.1.1, hr.1.1.2]
    | memory => exact ih _ hgood.2 hany
    | interrupt => exact ih _ hgood.2 hany
    | other => exact ih _ hgood.2 hany

/-- Of the pointers to the registers of the PWM and its clock, a memory entry makes one `NULL` at
most, and none when it is good. -/
theorem prepareMemory_pwmRegs (h : s.ctx.pwmRegs.isSome ∧ s.ctx.cmPwmRegs.isSome) (k : Nat)
    (start : BitVec 64) (length : Nat) (maps : Bool) :
    let x := s.prepareMemory k start length maps
    (x.2.ctx.pwmRegs.isSome ∨ x.2.ctx.cmPwmRegs.isSome) ∧
      (x.1 = .success → x.2.ctx.pwmRegs.isSome ∧ x.2.ctx.cmPwmRegs.isSome) := by
  have hregion : ∀ size (store : DeviceContext → Option Nat → DeviceContext) storePa,
      ((store s.ctx none).pwmRegs.isSome ∨ (store s.ctx none).cmPwmRegs.isSome) →
      (∀ a, (storePa (store s.ctx (some a))).pwmRegs.isSome ∧
        (storePa (store s.ctx (some a))).cmPwmRegs.isSome) →
      let x := s.mapRegion size length maps store storePa
      (x.2.ctx.pwmRegs.isSome ∨ x.2.ctx.cmPwmRegs.isSome) ∧
        (x.1 = .success → x.2.ctx.pwmRegs.isSome ∧ x.2.ctx.cmPwmRegs.isSome) := by
    intro size store storePa hnone hsome
    rcases s.mapRegion_cases size length maps store storePa with ⟨-, he⟩ | ⟨-, -, he⟩ | ⟨-, -, he⟩
    · rw [he]
      exact ⟨.inl h.1, fun hs => nomatch hs⟩
    · rw [he]
      exact ⟨hnone, fun hs => nomatch hs⟩
    · rw [he]
      exact ⟨.inl (hsome _).1, fun _ => hsome _⟩
  match k with
  | 0 => exact hregion _ _ _ (.inl h.1) fun _ => h
  | 1 => exact hregion _ _ _ (.inr h.2) fun _ => ⟨rfl, h.2⟩
  | 2 => exact ⟨.inl h.1, fun _ => h⟩
  | 3 => exact ⟨.inl h.1, fun _ => h⟩
  | 4 => exact hregion _ _ _ (.inl h.1) fun _ => ⟨h.1, rfl⟩
  | k + 5 => exact ⟨.inl h.1, fun _ => h⟩

theorem prepareResource_pwmRegs (h : s.ctx.pwmRegs.isSome ∧ s.ctx.cmPwmRegs.isSome)
    (r : Resource) (n : Counts) :
    let x := s.prepareResource r n
    (x.2.2.ctx.pwmRegs.isSome ∨ x.2.2.ctx.cmPwmRegs.isSome) ∧
      (x.1 = .success → x.2.2.ctx.pwmRegs.isSome ∧ x.2.2.ctx.cmPwmRegs.isSome) := by
  intro x
  cases r with
  | memory start length maps =>
    have hx : x.2.2 = _ := s.prepareResource_memory n start length maps
    have hs : x.1 = .success ↔ _ := s.prepareResource_success_iff (.memory start length maps) n
    rw [← s.prepareMemory_success_iff n.memoryResources start length maps] at hs
    rw [hs, hx]
    exact prepareMemory_pwmRegs h n.memoryResources start length maps
  | interrupt => exact ⟨.inl h.1, fun _ => h⟩
  | dma channel requestLine transferWidth grantsBuffer grantsCb =>
    obtain ⟨-, -, hp, hc⟩ :=
      s.prepareDma_frame channel requestLine transferWidth grantsBuffer grantsCb
    rw [show x.2.2 = _ from s.prepareResource_dma .., hp, hc]
    exact ⟨.inl h.1, fun _ => h⟩
  | other => exact ⟨.inl h.1, fun _ => h⟩

/-- So does the loop, which ends with such an entry. -/
theorem prepareResources_pwmRegs :
    ∀ (rs : List Resource) (n : Counts) (s : Device),
      s.ctx.pwmRegs.isSome ∧ s.ctx.cmPwmRegs.isSome →
      (prepareResources rs n s).2.2.ctx.pwmRegs.isSome ∨
        (prepareResources rs n s).2.2.ctx.cmPwmRegs.isSome := by
  intro rs
  induction rs with
  | nil => exact fun _ _ h => .inl h.1
  | cons r rs ih =>
    intro n s h
    obtain ⟨hone, hboth⟩ := prepareResource_pwmRegs h r n
    rw [prepareResources]
    split
    · next n' s' he =>
      rw [he] at hboth
      exact ih n' s' (hboth rfl)
    · next he =>
      rw [he] at hone
      exact hone

/-- **When registers are mapped the context points to some after the loop**, for it only ever
overwrites a pointer with the next region. -/
theorem RegionsInv.registers_ne_nil :
    ∀ {rs : List Resource} {n : Counts} {s : Device}, n.memoryResources = 0 → RegionsInv 0 s →
      mapsRegisters rs → (Device.prepareResources rs n s).2.2.ctx.registers ≠ [] := by
  intro rs
  induction rs with
  | nil => exact fun _ _ h => nomatch h
  | cons r rs ih =>
    intro n s hn h hmaps
    rw [mapsRegisters, Bool.and_eq_true] at hmaps
    have hr := (hn ▸ h : RegionsInv n.memoryResources s).prepareResource r
    have hsuccess := (s.prepareResource_success_iff r n).2 (by rw [hn]; exact hmaps.1)
    have hcounts := s.prepareResource_counts hsuccess
    rw [Device.prepareResources]
    split
    · next n' s' he =>
      rw [he] at hcounts hr
      have hn' : n'.memoryResources = r.isMemory.toNat := by
        rw [show n' = _ from hcounts, hn, Nat.zero_add]
      cases hm : r.isMemory with
      | true =>
        rw [hm] at hn'
        obtain ⟨k, hk, hle, -⟩ := RegionsInv.prepareResources rs (n := n') (s := s')
          (by simpa [hn, hn', hm] using hr)
        intro hnil
        simp only [DeviceContext.registers, List.append_eq_nil_iff, Option.toList_eq_nil_iff]
          at hnil
        have hpos : 0 < k := Nat.lt_of_lt_of_le (by rw [hn']; decide) hle
        have hsome := hk.dmaChannelRegs
        rw [hnil.1.1, decide_eq_true hpos] at hsome
        cases hsome
      | false =>
        rw [hm] at hn'
        exact ih hn' (by simpa [hn, hm] using hr) (by simpa [hm] using hmaps.2)
    · next hne he =>
      rw [he] at hsuccess
      exact absurd hsuccess hne

end Device

/-- **Registers that are left mapped by a prepare that fails are unmapped twice.** -/
theorem not_sound_of_registers {s : Device} {resources : List Resource}
    (hcomplete : ¬complete resources)
    (hregisters : (Device.prepareResources resources {} s).2.2.ctx.registers ≠ []) :
    ¬Sound (effect (effect s (.prepareHardware resources)) .releaseHardware) := by
  intro hsound
  obtain ⟨live, hlive⟩ := hsound.released.1
  have hnodup := (hlive.nodup_iff.1 hsound.distinct.1).of_append_left
  rw [effect, effect, Device.releaseHardware_eq] at hnodup
  simp only [s.prepareHardware_snd, if_neg hcomplete, Device.releaseHardware_eq,
    Ledger.releaseAll_eq] at hnodup
  obtain ⟨a, ha⟩ := List.exists_mem_of_ne_nil _ hregisters
  exact List.disjoint_of_nodup_append hnodup (List.mem_reverse.2 ha)
    (List.mem_append_left _ (List.mem_reverse.2 ha))

/-- **Nothing less is enough**: a prepare that is not ready, with its release, is not sound. -/
theorem not_sound_of_not_ready {s : Device} (h : hardwareMachine.Reach Ready s)
    (hphase : s.phase = .released) {resources : List Resource}
    (hnot : ¬Ready s (.prepareHardware resources)) :
    ¬Sound (effect (effect s (.prepareHardware resources)) .releaseHardware) := by
  have hinv := inv_of_ready h
  have hassert : allocatesHeld s.ctx.dmaBuffer.isSome 0 resources →
      ¬Sound (effect (effect s (.prepareHardware resources)) .releaseHardware) := by
    intro hheld hsound
    have hlt := Device.prepareResources_failedAssertions_lt resources {} s hheld
    have hzero := hsound.failedAssertions
    rw [effect, effect, Device.releaseHardware_eq] at hzero
    simp only [s.prepareHardware_snd, Device.releaseHardware_eq] at hzero
    split at hzero <;> exact absurd hlt (by rw [show _ = 0 from hzero]; exact Nat.not_lt_zero _)
  by_cases hregisters : s.ctx.registers = []
  · by_cases hmaps : mapsRegisters resources → complete resources
    · refine hassert ?_
      cases hheld : allocatesHeld s.ctx.dmaBuffer.isSome 0 resources with
      | true => rfl
      | false => exact absurd ⟨hregisters, hmaps, hheld⟩ hnot
    · obtain ⟨hm, hcomplete⟩ := Classical.not_imp.1 hmaps
      exact not_sound_of_registers hcomplete
        (Device.RegionsInv.registers_ne_nil rfl (hinv.regionsInv hphase hregisters) hm)
  · -- an earlier prepare has been complete, so that all the pointers are stale
    obtain ⟨hpwm, hbuffer⟩ := hinv.whole.resolve_left hregisters
    by_cases hcomplete : complete resources
    · refine hassert ?_
      have hc := hcomplete
      simp only [complete, Bool.and_eq_true, decide_eq_true_eq] at hc
      obtain ⟨r, hr, hdma⟩ := List.countP_pos_iff.1 (show 0 < resources.countP Resource.isDma by
        rw [hc.2]; decide)
      rw [hbuffer]
      exact Device.allocatesHeld_of_allGood resources 0 hc.1.1.1
        (List.any_eq_true.2 ⟨r, hr, hdma⟩)
    · refine not_sound_of_registers hcomplete fun hnil => ?_
      simp only [DeviceContext.registers, List.append_eq_nil_iff, Option.toList_eq_nil_iff] at hnil
      have hone := Device.prepareResources_pwmRegs resources {} s hpwm
      rw [hnil.1.2, hnil.2] at hone
      exact absurd hone (by decide)

/-- **In every run whose prepares are ready every state is sound**; and a prepare that follows such
a run is sound, with its release, exactly when it is ready. -/
theorem preparedSound_iff {s : Device} (h : hardwareMachine.Reach Ready s) :
    Sound s ∧ (s.phase = .released → ∀ resources,
      (Sound (effect (effect s (.prepareHardware resources)) .releaseHardware) ↔
        Ready s (.prepareHardware resources))) := by
  refine ⟨sound_of_ready h, fun hphase resources => ⟨fun hsound => ?_, fun hready => ?_⟩⟩
  · by_contra hnot
    exact not_sound_of_not_ready h hphase hnot hsound
  · let s' := effect s (.prepareHardware resources)
    have hprepare : hardwareMachine.step s (.prepareHardware resources) = some s' :=
      Machine.guarded_step.2 ⟨hphase, rfl⟩
    have hrelease : hardwareMachine.step s' .releaseHardware = some (effect s' .releaseHardware) :=
      Machine.guarded_step.2 ⟨rfl, rfl⟩
    have hok : Ready s' .releaseHardware := trivial
    exact sound_of_ready ((h.step hready hprepare).step hok hrelease)

/-- A complete list: the DMA channel, the PWM, its two other addresses, and the clock. -/
def pwmResources : List Resource :=
  [.memory 0x3F007B00 256 true, .memory 0x3F20C000 40 true, .memory 0x7E20C000 40 true,
    .memory 0xFF20C000 40 true, .memory 0x3F1010A0 8 true, .interrupt, .dma 11 5 2 true true]

/-- A prepare without any resources, one that is complete, and the cleanup. -/
def cleanRun : List Action :=
  [.prepareHardware [], .releaseHardware, .prepareHardware pwmResources, .releaseHardware,
    .onDeviceContextCleanup]

theorem preparedSound_cleanRun :
    ∃ s, hardwareMachine.Reach Ready s ∧ s.mappings.acquired.length = 3 ∧ s.phase = .cleanedUp ∧
      Sound s := by
  obtain ⟨s, h, hs⟩ := hardwareMachine.reach_execOk_any Ready cleanRun
    (p := fun s => s.mappings.acquired.length = 3 ∧ s.phase = .cleanedUp) (s := Device.start) rfl
    (by decide +kernel)
  simp only [decide_eq_true_eq] at hs
  exact ⟨s, h, hs.1, hs.2, (preparedSound_iff h).1⟩

/-! ## Two failures -/

/-- The hardware is prepared, released, and prepared again. -/
def restartRun : List Action :=
  [.prepareHardware pwmResources, .releaseHardware, .prepareHardware pwmResources]

/-- A prepare fails after it has mapped registers. -/
def failedRun : List Action := [.prepareHardware (pwmResources.take 2), .releaseHardware]

/-- **A device that is started again fails the assertion** and allocates buffers while it holds
some; **registers that are mapped by a prepare that fails are unmapped twice**. -/
theorem hardware_unsound :
    (∃ s, hardwareMachine.Reachable s ∧ s.failedAssertions = 1 ∧ s.overlaps = 2 ∧ ¬Sound s) ∧
    ∃ s, hardwareMachine.Reachable s ∧ s.mappings = ⟨[1, 0], [1, 0, 1, 0]⟩ ∧ ¬Sound s := by
  constructor
  · obtain ⟨s, h, hs⟩ := hardwareMachine.reach_exec_any restartRun
      (p := fun s => s.failedAssertions = 1 ∧ s.overlaps = 2) (s := Device.start) rfl
      (by decide +kernel)
    simp only [decide_eq_true_eq] at hs
    exact ⟨s, h, hs.1, hs.2, fun hsound => absurd hsound.failedAssertions (by rw [hs.1]; decide)⟩
  · obtain ⟨s, h, hs⟩ := hardwareMachine.reach_exec_any failedRun
      (p := fun s => s.mappings = ⟨[1, 0], [1, 0, 1, 0]⟩) (s := Device.start) rfl
      (by decide +kernel)
    simp only [decide_eq_true_eq] at hs
    refine ⟨s, h, hs, fun hsound => ?_⟩
    obtain ⟨live, hlive⟩ := hsound.released.1
    rw [hs] at hlive
    exact absurd hlive.length_eq (by simp)

end RpiDrivers.PwmDriver.Hardware
