import Mathlib.Algebra.Ring.Nat
import Mathlib.Tactic.SplitIfs
import RpiDrivers.Lib.Ledger

/-!
# The MAC address of the network adapter (`RpiqSetNdisMacAddress` in `device.c`)

The mailbox driver looks for the network adapter of the board among the instances of the network
class in the registry, and stores the MAC address there. It tries the subkeys `0000`, `0001` and so
on until it finds one of the adapters that it knows, or a subkey is missing.

- `rpiqSetNdisMacAddress`: the search, for so many attempts.
- `attempt`: what an attempt comes to.
- `Stored`: **the search ends, writes the address where it belongs, closes every key and frees
  every buffer**.
- `stored_iff`: **exactly when it does**.
-/

namespace RpiDrivers.Mailbox.MacAddress

open RpiDrivers.Lib

/-- The `NTSTATUS` values that are errors. -/
inductive Error
  /-- `STATUS_OBJECT_NAME_NOT_FOUND` -/
  | objectNameNotFound
  /-- `STATUS_BUFFER_TOO_SMALL` -/
  | bufferTooSmall
  /-- `STATUS_BUFFER_OVERFLOW` -/
  | bufferOverflow
  | other (code : BitVec 32)
  deriving DecidableEq

/-- `NTSTATUS` -/
inductive Status
  | success
  | error (e : Error)
  deriving DecidableEq

/-! ## The registry -/

/-- A subkey of the network class, with the data of its values. -/
structure Subkey where
  /-- `DriverDesc` -/
  driverDesc : Option (List (BitVec 8))
  /-- `PropertyChangeStatus` -/
  propertyChangeStatus : Option (List (BitVec 8))

/-- What goes wrong in an attempt. A query that fails also says how long the buffer is to be. -/
structure Faults where
  openKey : Option Error := none
  queryDesc : Option (Error × Nat) := none
  queryDescAgain : Option (Error × Nat) := none
  queryProperty : Option (Error × Nat) := none
  /-- `ExAllocatePoolZero` finds memory -/
  allocates : Bool := true
  setProperty : Status := .success

/-- The registry, and what goes wrong. -/
structure Env where
  /-- the instances with names of four digits -/
  subkey : Fin 10000 → Option Subkey
  /-- `RtlUpcaseUnicodeChar` -/
  upcase : BitVec 16 → BitVec 16
  /-- `macAddrStrGlobal` -/
  macAddrStr : List (BitVec 16)
  openBase : Option Error
  faults : Nat → Faults

/-- The UTF-16 code units in the data of a value. -/
def codeUnits : List (BitVec 8) → List (BitVec 16)
  | low :: high :: data => (high ++ low) :: codeUnits data
  | _ => []

/-- `RtlPrefixUnicodeString`, without regard to case -/
def rtlPrefixUnicodeString (upcase : BitVec 16 → BitVec 16) :
    List (BitVec 16) → List (BitVec 16) → Bool
  | [], _ => true
  | _ :: _, [] => false
  | a :: as, b :: bs => (a = b || upcase a = upcase b) && rtlPrefixUnicodeString upcase as bs

/-- `L"..."` -/
def wide (s : String) : List (BitVec 16) := s.toList.map fun c => BitVec.ofNat 16 c.toNat

/-- `DescLAN7800` -/
def descLan7800 : List (BitVec 16) := wide "LAN7800"

/-- `DescLAN951x` -/
def descLan951x : List (BitVec 16) := wide "LAN9512/LAN9514"

/-- The description of an adapter that the driver knows. -/
def matchesDesc (upcase : BitVec 16 → BitVec 16) (desc : List (BitVec 8)) : Bool :=
  rtlPrefixUnicodeString upcase descLan7800 (codeUnits desc) ||
    rtlPrefixUnicodeString upcase descLan951x (codeUnits desc)

/-- The part of the description that `Desc` covers: its `Length` is a `USHORT`. -/
def descOf (data : List (BitVec 8)) : List (BitVec 8) := data.take (data.length % 65536)

/-- `sizeof(KEY_VALUE_FULL_INFORMATION)` up to the name -/
def fullInformationHeader : Nat := 20

/-- The length of the full information of a value, with a name of so many bytes. -/
def fullInformationLength (nameLength : Nat) (data : List (BitVec 8)) : Nat :=
  fullInformationHeader + nameLength + data.length

/-- `ZwQueryValueKey` for the full information, and the length that it requires -/
def zwQueryValueKey (nameLength : Nat) (value : Option (List (BitVec 8)))
    (fault : Option (Error × Nat)) (length : Nat) : Status × Nat :=
  match fault, value with
  | some (e, required), _ => (.error e, required)
  | none, none => (.error .objectNameNotFound, 0)
  | none, some data =>
    let required := fullInformationLength nameLength data
    if length < fullInformationHeader then (.error .bufferTooSmall, required)
    else if length < required then (.error .bufferOverflow, required)
    else (.success, required)

/-- The length of `L"DriverDesc"` -/
def driverDescLength : Nat := 20

/-- The length of `L"PropertyChangeStatus"` -/
def propertyChangeStatusLength : Nat := 40

/-- `RtlStringCchPrintfW(KeyInstance, 5, L"%04d", Instance)`: the number that is printed. It is
taken as signed, and four characters hold those from `-999` to `9999`. -/
def keyInstance (i : BitVec 32) : Option Int :=
  if -999 ≤ i.toInt ∧ i.toInt ≤ 9999 then some i.toInt else none

/-- The subkey with a printed name; a name with a sign is no instance. -/
def Env.subkeyNamed (env : Env) (name : Int) : Option Subkey :=
  if h : 0 ≤ name ∧ name.toNat < 10000 then env.subkey ⟨name.toNat, h.2⟩ else none

/-- `ZwOpenKey` for a subkey -/
def Env.zwOpenKey (env : Env) (f : Faults) (name : Int) : Except Error Subkey :=
  match f.openKey, env.subkeyNamed name with
  | some e, _ => .error e
  | none, none => .error .objectNameNotFound
  | none, some k => .ok k

/-! ## The search -/

/-- A call of `ZwSetValueKey`. -/
inductive Write
  | networkAddress (key : Int) (address : List (BitVec 16))
  | propertyChangeStatus (key : Int) (value : Nat)

/-- The variables of the search; a handle or a buffer is the number of the open or the allocation
that it came from. -/
structure Search where
  status : Status := .success
  instance_ : BitVec 32 := 0
  baseKey : Option Nat := none
  subKey : Option Nat := none
  infoBuffer : Option Nat := none
  infoBufferLength : Nat := 0
  requireBufferLength : Nat := 0
  keys : Ledger Nat := .empty
  buffers : Ledger Nat := .empty
  writes : List Write := []

/-- Where the control goes. -/
inductive Flow
  | next (s : Search)
  /-- `goto End` -/
  | leave (s : Search)

namespace Search

variable (s : Search)

/-- The queries for `DriverDesc`, the second one with a buffer; whether the buffer is refused. -/
def queryDescription (f : Faults) (k : Subkey) : Search × Bool :=
  let q := zwQueryValueKey driverDescLength k.driverDesc f.queryDesc s.infoBufferLength
  let s := { s with status := q.1, requireBufferLength := q.2 }
  if s.status = .error .bufferTooSmall then
    if f.allocates then
      let s := { s with
        infoBuffer := some s.buffers.next
        infoBufferLength := s.requireBufferLength
        buffers := s.buffers.acquire s.buffers.next }
      let q := zwQueryValueKey driverDescLength k.driverDesc f.queryDescAgain s.infoBufferLength
      ({ s with status := q.1, requireBufferLength := q.2 }, false)
    else ({ s with infoBuffer := none }, true)
  else (s, false)

/-- What is done for an adapter with a description that matches. -/
def setMacAddress (env : Env) (f : Faults) (key : Int) (k : Subkey) : Search :=
  let q := zwQueryValueKey propertyChangeStatusLength k.propertyChangeStatus f.queryProperty
    s.infoBufferLength
  let s := { s with status := q.1, requireBufferLength := q.2 }
  if s.status = .error .objectNameNotFound then
    { s with
      writes := s.writes ++ [.networkAddress key env.macAddrStr, .propertyChangeStatus key 1]
      status := f.setProperty }
  else s

/-- `ZwClose`, when there is a key -/
def zwClose (key : Option Nat) : Search := { s with keys := s.keys.releaseAll key.toList }

/-- `ExFreePool`, when there is a buffer -/
def exFreePool : Search := { s with buffers := s.buffers.releaseAll s.infoBuffer.toList }

/-- The end of the loop body -/
def closeInstance : Search :=
  let s := if s.status = .error .objectNameNotFound then { s with status := .success } else s
  let s := { s.zwClose s.subKey with subKey := none }
  if s.infoBuffer.isSome then { s.exFreePool with infoBuffer := none, infoBufferLength := 0 } else s

/-- The subkey is open. -/
def opened : Search :=
  { s with status := .success, subKey := some s.keys.next, keys := s.keys.acquire s.keys.next }

/-- The loop body, when the subkey is open -/
def tryKey (env : Env) (f : Faults) (name : Int) (k : Subkey) : Flow :=
  let x := s.queryDescription f k
  if x.2 then .leave x.1
  else if x.1.status = .success ∧ matchesDesc env.upcase (descOf (k.driverDesc.getD [])) then
    .leave (x.1.setMacAddress env f name k)
  else .next x.1.closeInstance

/-- The loop body -/
def tryInstance (env : Env) (f : Faults) : Flow :=
  let s' := { s with instance_ := s.instance_ + 1 }
  match keyInstance s.instance_ with
  | none => .next { s' with status := .error .bufferOverflow }
  | some name =>
    match env.zwOpenKey f name with
    | .error e => .next { s' with status := .error e, subKey := none }
    | .ok k => s'.opened.tryKey env f name k

/-- `End:` -/
def finish : Search := ((s.zwClose s.baseKey).zwClose s.subKey).exFreePool

end Search

/-- The loop, from an attempt on, for at most so many attempts -/
def search (env : Env) : Nat → Nat → Search → Option Search
  | 0, _, _ => none
  | fuel + 1, t, s =>
    if s.status = .error .objectNameNotFound then some s.finish
    else
      match s.tryInstance env (env.faults t) with
      | .next s => search env fuel (t + 1) s
      | .leave s => some s.finish

/-- `RpiqSetNdisMacAddress` with the static variable `MacSet`, for at most so many attempts -/
def rpiqSetNdisMacAddress (env : Env) (macSet : Bool) (fuel : Nat) : Option Search :=
  if macSet then some {}
  else
    match env.openBase with
    | some e => some { ({} : Search) with status := .error e }.finish
    | none => search env fuel 0 { baseKey := some 0, keys := Ledger.empty.acquire 0 }

/-! ## What it is for -/

/-- The instance is an adapter whose description matches. -/
def Env.Matches (env : Env) (n : Fin 10000) : Prop :=
  ∃ k desc, env.subkey n = some k ∧ k.driverDesc = some desc ∧ matchesDesc env.upcase desc

/-- It is the first one. -/
def Env.FirstMatch (env : Env) (n : Fin 10000) : Prop :=
  env.Matches n ∧ ∀ m < n, ¬env.Matches m

/-- `PropertyChangeStatus` is not set there. -/
def Env.Unset (env : Env) (n : Fin 10000) : Prop :=
  ∃ k, env.subkey n = some k ∧ k.propertyChangeStatus = none

/-- What is written for an adapter. -/
def Env.address (env : Env) (key : Int) : List Write :=
  [.networkAddress key env.macAddrStr, .propertyChangeStatus key 1]

/-- The address is written to the first adapter that matches, unless `PropertyChangeStatus` is set
there, and nowhere else. -/
structure Written (env : Env) (writes : List Write) : Prop where
  unset : ∀ n, env.FirstMatch n → env.Unset n → writes = env.address n.1
  other : (∀ n, env.FirstMatch n → ¬env.Unset n) → writes = []

/-- Every key is closed once and every buffer freed once. -/
structure Settled (s : Search) : Prop where
  distinct : s.keys.acquired.Nodup ∧ s.buffers.acquired.Nodup
  keys : s.keys.Settled
  buffers : s.buffers.Settled

/-- **The search ends, writes the address where it belongs, closes every key and frees every
buffer.** -/
def Stored (env : Env) : Prop :=
  ∃ fuel s, rpiqSetNdisMacAddress env false fuel = some s ∧ Written env s.writes ∧ Settled s

/-! ## What an attempt comes to -/

/-- The status of the query for the description, and the length of the buffer; `none` when the
buffer is refused. -/
def described (f : Faults) (k : Subkey) : Option (Status × Nat) :=
  let q := zwQueryValueKey driverDescLength k.driverDesc f.queryDesc 0
  if q.1 = .error .bufferTooSmall then
    if f.allocates then
      some ((zwQueryValueKey driverDescLength k.driverDesc f.queryDescAgain q.2).1, q.2)
    else none
  else some (q.1, 0)

/-- What an attempt comes to. -/
inductive Attempt
  /-- the next one is made -/
  | skip
  /-- the subkey is reported missing -/
  | missing
  /-- there is no memory for the buffer -/
  | refused
  /-- a description matches, and this is what the query for `PropertyChangeStatus` returns -/
  | found (key : Int) (property : Status)
  deriving DecidableEq

/-- An attempt at a subkey that is open, by what is in it and what goes wrong. -/
def Env.attemptKey (env : Env) (f : Faults) (name : Int) (k : Subkey) : Attempt :=
  match described f k with
  | none => .refused
  | some (status, length) =>
    if status = .success ∧ matchesDesc env.upcase (descOf (k.driverDesc.getD [])) then
      .found name (zwQueryValueKey propertyChangeStatusLength k.propertyChangeStatus
        f.queryProperty length).1
    else .skip

/-- An attempt, by the registry and what goes wrong. -/
def Env.attempt (env : Env) (t : Nat) : Attempt :=
  match keyInstance (BitVec.ofNat 32 t) with
  | none => .skip
  | some name =>
    match env.zwOpenKey (env.faults t) name with
    | .error e => if e = .objectNameNotFound then .missing else .skip
    | .ok k => env.attemptKey (env.faults t) name k

/-- What an attempt writes. -/
def Env.written (env : Env) : Attempt → List Write
  | .found key (.error .objectNameNotFound) => env.address key
  | _ => []

/-- The search ends at an attempt, the first that is not skipped. -/
def Env.EndsAt (env : Env) (t : Nat) : Prop :=
  (∀ j < t, env.attempt j = .skip) ∧ env.attempt t ≠ .skip

namespace Search

variable {s : Search}

/-- What is open is in the variables. -/
structure Closable (s : Search) : Prop where
  numbered : s.keys.Numbered ∧ s.buffers.Numbered
  keys : s.keys.Live (s.baseKey.toList ++ s.subKey.toList)
  buffers : s.buffers.Live s.infoBuffer.toList

theorem Closable.finish (h : s.Closable) : Settled s.finish where
  distinct := ⟨((h.numbered.1.releaseAll _).releaseAll _).nodup, (h.numbered.2.releaseAll _).nodup⟩
  keys := by
    have hkeys := h.keys.settled
    rw [Ledger.releaseAll_append] at hkeys
    exact hkeys
  buffers := h.buffers.settled

/-- Between two attempts: only the base key is open, and nothing is written. -/
structure Clean (t : Nat) (s : Search) : Prop where
  closable : s.Closable
  instance_ : s.instance_ = BitVec.ofNat 32 t
  subKey : s.subKey = none
  infoBuffer : s.infoBuffer = none
  infoBufferLength : s.infoBufferLength = 0
  writes : s.writes = []

/-- What the queries for the description leave behind. -/
theorem queryDescription_spec (h : s.Closable) (hnone : s.infoBuffer = none)
    (hlength : s.infoBufferLength = 0) (f : Faults) (k : Subkey) :
    let x := s.queryDescription f k
    x.1.Closable ∧ x.1.instance_ = s.instance_ ∧ x.1.writes = s.writes ∧
      x.1.baseKey = s.baseKey ∧ (x.1.infoBuffer = none → x.1.infoBufferLength = 0) ∧
      match described f k with
      | none => x.2 = true
      | some (status, length) =>
        x.2 = false ∧ x.1.status = status ∧ x.1.infoBufferLength = length := by
  rw [queryDescription, described, hlength]
  generalize zwQueryValueKey driverDescLength k.driverDesc f.queryDesc 0 = q
  by_cases hsmall : q.1 = .error .bufferTooSmall
  · by_cases hgrant : f.allocates = true
    · have hlive : s.buffers.Live [] := by simpa [hnone] using h.buffers
      rw [if_pos hsmall, if_pos hsmall, if_pos hgrant, if_pos hgrant]
      exact ⟨⟨⟨h.numbered.1, h.numbered.2.acquire⟩, h.keys, hlive.acquire⟩, rfl, rfl, rfl,
        fun hn => (nomatch hn), rfl, rfl, rfl⟩
    · rw [if_pos hsmall, if_pos hsmall, if_neg hgrant, if_neg hgrant]
      exact ⟨⟨h.numbered, h.keys, by simpa [hnone] using h.buffers⟩, rfl, rfl, rfl,
        fun _ => rfl, rfl⟩
  · rw [if_neg hsmall, if_neg hsmall]
    exact ⟨⟨h.numbered, h.keys, h.buffers⟩, rfl, rfl, rfl, fun _ => rfl, rfl, rfl, rfl⟩

/-- The end of the loop body closes what the attempt has opened. -/
theorem closeInstance_clean {t : Nat} (h : s.Closable) (hinstance : s.instance_ = BitVec.ofNat 32 t)
    (hlength : s.infoBuffer = none → s.infoBufferLength = 0) (hwrites : s.writes = []) :
    s.closeInstance.Clean t ∧ s.closeInstance.status ≠ .error .objectNameNotFound := by
  -- what the status is made of does not matter to the rest
  suffices hclose : ∀ s : Search, s.Closable → s.instance_ = BitVec.ofNat 32 t →
      (s.infoBuffer = none → s.infoBufferLength = 0) → s.writes = [] →
      let s' : Search := { s.zwClose s.subKey with subKey := none }
      (if s'.infoBuffer.isSome then
        { s'.exFreePool with infoBuffer := none, infoBufferLength := 0 } else s').Clean t by
    rw [closeInstance]
    by_cases hstatus : s.status = .error .objectNameNotFound
    · rw [if_pos hstatus]
      refine ⟨hclose _ ⟨h.numbered, h.keys, h.buffers⟩ hinstance hlength hwrites, ?_⟩
      split_ifs <;> exact fun he => nomatch he
    · rw [if_neg hstatus]
      refine ⟨hclose s h hinstance hlength hwrites, ?_⟩
      split_ifs <;> exact hstatus
  intro s h hinstance hlength hwrites s'
  have hkeys : (s.keys.releaseAll s.subKey.toList).Live (s.baseKey.toList ++ []) := by
    rw [List.append_nil]
    exact (h.keys.of_perm List.perm_append_comm).releaseAll
  split_ifs with hsome
  · exact {
      closable :=
        { numbered := ⟨h.numbered.1.releaseAll _, h.numbered.2.releaseAll _⟩
          keys := hkeys
          buffers := h.buffers.settled }
      instance_ := hinstance
      subKey := rfl
      infoBuffer := rfl
      infoBufferLength := rfl
      writes := hwrites }
  · have hnone : s.infoBuffer = none := by simpa [s', zwClose] using hsome
    exact {
      closable :=
        { numbered := ⟨h.numbered.1.releaseAll _, h.numbered.2⟩
          keys := hkeys
          buffers := h.buffers }
      instance_ := hinstance
      subKey := rfl
      infoBuffer := hnone
      infoBufferLength := hlength hnone
      writes := hwrites }

theorem setMacAddress_spec (h : s.Closable) (env : Env) (f : Faults) (key : Int) (k : Subkey)
    (hwrites : s.writes = []) :
    (s.setMacAddress env f key k).Closable ∧
      (s.setMacAddress env f key k).writes = env.written (.found key
        (zwQueryValueKey propertyChangeStatusLength k.propertyChangeStatus f.queryProperty
          s.infoBufferLength).1) := by
  rw [setMacAddress]
  generalize zwQueryValueKey propertyChangeStatusLength k.propertyChangeStatus f.queryProperty
    s.infoBufferLength = q
  obtain ⟨status, required⟩ := q
  split_ifs with hq
  · obtain rfl : status = _ := hq
    exact ⟨⟨h.numbered, h.keys, h.buffers⟩, by simp [hwrites, Env.written, Env.address]⟩
  · refine ⟨⟨h.numbered, h.keys, h.buffers⟩, hwrites.trans ?_⟩
    match status, hq with
    | .success, _ => rfl
    | .error .objectNameNotFound, hq => exact absurd rfl hq
    | .error .bufferTooSmall, _ => rfl
    | .error .bufferOverflow, _ => rfl
    | .error (.other _), _ => rfl

/-- What the loop body is to leave behind, for what the attempt comes to. -/
def Flow.Does (env : Env) (t : Nat) (a : Attempt) : Flow → Prop
  | .next s => s.Clean t ∧ a = if s.status = .error .objectNameNotFound then .missing else .skip
  | .leave s => s.Closable ∧ a ≠ .skip ∧ s.writes = env.written a

theorem tryKey_spec {t : Nat} (h : s.Closable) (hinstance : s.instance_ = BitVec.ofNat 32 t)
    (hnone : s.infoBuffer = none) (hlength : s.infoBufferLength = 0) (hwrites : s.writes = [])
    (env : Env) (f : Faults) (name : Int) (k : Subkey) :
    Flow.Does env t (env.attemptKey f name k) (s.tryKey env f name k) := by
  obtain ⟨hclose, hinst, hwr, -, hlen, hdesc⟩ := queryDescription_spec h hnone hlength f k
  rw [tryKey, Env.attemptKey]
  generalize s.queryDescription f k = x at hclose hinst hwr hlen hdesc ⊢
  rw [hinstance] at hinst
  rw [hwrites] at hwr
  cases hd : described f k with
  | none =>
    rw [hd] at hdesc
    rw [if_pos hdesc]
    exact ⟨hclose, fun he => (nomatch he), hwr⟩
  | some q =>
    rw [hd] at hdesc
    obtain ⟨hgranted, hstatus, hl⟩ := hdesc
    rw [hgranted, if_neg Bool.false_ne_true, hstatus]
    by_cases hmatch : q.1 = .success ∧ matchesDesc env.upcase (descOf (k.driverDesc.getD []))
    · obtain ⟨hset, hw⟩ := setMacAddress_spec hclose env f name k hwr
      simp only [if_pos hmatch]
      rw [hl] at hw
      exact ⟨hset, fun he => (nomatch he), hw⟩
    · obtain ⟨hclean, hne⟩ := closeInstance_clean hclose hinst hlen hwr
      simp only [if_neg hmatch]
      exact ⟨hclean, by rw [if_neg hne]⟩

/-- **The loop body does what the attempt comes to**, and leaves behind what it has opened. -/
theorem tryInstance_spec {t : Nat} (h : s.Clean t) (env : Env) :
    Flow.Does env (t + 1) (env.attempt t) (s.tryInstance env (env.faults t)) := by
  obtain ⟨hclosable, hinstance, hsub, hbuffer, hlength, hwrites⟩ := h
  have hnext : s.instance_ + 1 = BitVec.ofNat 32 (t + 1) := by
    rw [hinstance, BitVec.ofNat_add]
    rfl
  have hkeys := hclosable.keys
  rw [hsub] at hkeys
  rw [tryInstance, Env.attempt, ← hinstance]
  split
  · exact ⟨⟨⟨hclosable.numbered, hclosable.keys, hclosable.buffers⟩, hnext, hsub, hbuffer, hlength,
      hwrites⟩, rfl⟩
  · next name _ =>
    split
    · next e _ =>
      refine ⟨⟨⟨hclosable.numbered, hkeys, hclosable.buffers⟩, hnext, rfl, hbuffer, hlength,
        hwrites⟩, ?_⟩
      by_cases he : e = .objectNameNotFound
      · rw [if_pos he, if_pos (by rw [he])]
      · rw [if_neg he, if_neg fun hs => he (Status.error.inj hs)]
    · rw [Option.toList_none, List.append_nil] at hkeys
      refine tryKey_spec (s := opened { s with instance_ := s.instance_ + 1 })
        ⟨⟨hclosable.numbered.1.acquire, hclosable.numbered.2⟩, ?_, hclosable.buffers⟩ hnext hbuffer
        hlength hwrites env ..
      exact hkeys.acquire.of_perm (List.perm_append_singleton _ _).symm

end Search

/-! ## The whole search -/

/-- **A search that comes back has come to its end**, has written what the last attempt writes, and
leaves nothing open. -/
theorem search_some (env : Env) :
    ∀ {fuel t : Nat} {s s' : Search}, s.Clean t → s.status ≠ .error .objectNameNotFound →
      search env fuel t s = some s' →
      ∃ j, (∀ i < j, env.attempt (t + i) = .skip) ∧ env.attempt (t + j) ≠ .skip ∧
        s'.writes = env.written (env.attempt (t + j)) ∧ Settled s' := by
  intro fuel
  induction fuel with
  | zero => exact fun _ _ h => nomatch h
  | succ fuel ih =>
    intro t s s' h hstatus hs
    have hdoes := Search.tryInstance_spec h env
    rw [search, if_neg hstatus] at hs
    split at hs
    · next s₁ he =>
      rw [he] at hdoes
      obtain ⟨hclean, hattempt⟩ := hdoes
      by_cases hmissing : s₁.status = .error .objectNameNotFound
      · rw [if_pos hmissing] at hattempt
        cases fuel with
        | zero => cases hs
        | succ fuel =>
          rw [search, if_pos hmissing] at hs
          cases hs
          exact ⟨0, fun i hi => absurd hi i.not_lt_zero, by rw [Nat.add_zero, hattempt]; decide,
            by rw [Nat.add_zero, hattempt]; exact hclean.writes, hclean.closable.finish⟩
      · rw [if_neg hmissing] at hattempt
        obtain ⟨j, hskip, hend, hwrites, hsettled⟩ := ih hclean hmissing hs
        rw [Nat.add_assoc, Nat.add_comm 1] at hend hwrites
        refine ⟨j + 1, ?_, hend, hwrites, hsettled⟩
        intro i hi
        cases i with
        | zero => exact hattempt
        | succ i =>
          have hi' := hskip i (Nat.lt_of_succ_lt_succ hi)
          rwa [Nat.add_assoc, Nat.add_comm 1] at hi'
    · next s₁ he =>
      rw [he] at hdoes
      obtain ⟨hclose, hend, hwrites⟩ := hdoes
      cases hs
      exact ⟨0, fun i hi => absurd hi i.not_lt_zero, hend, hwrites, hclose.finish⟩

/-- **A search whose end comes returns**, with enough attempts. -/
theorem search_isSome (env : Env) :
    ∀ {j t : Nat} {s : Search}, s.Clean t → s.status ≠ .error .objectNameNotFound →
      (∀ i < j, env.attempt (t + i) = .skip) → env.attempt (t + j) ≠ .skip →
      ∃ s', search env (j + 2) t s = some s' := by
  intro j
  induction j with
  | zero =>
    intro t s h hstatus _ hend
    have hdoes := Search.tryInstance_spec h env
    rw [search, if_neg hstatus]
    split
    · next s₁ he =>
      rw [he] at hdoes
      by_cases hmissing : s₁.status = .error .objectNameNotFound
      · exact ⟨_, by rw [search, if_pos hmissing]⟩
      · exact absurd (hdoes.2.trans (if_neg hmissing)) hend
    · exact ⟨_, rfl⟩
  | succ j ih =>
    intro t s h hstatus hskip hend
    have hdoes := Search.tryInstance_spec h env
    have hnow : env.attempt t = .skip := hskip 0 j.succ_pos
    rw [search, if_neg hstatus]
    split
    · next s₁ he =>
      rw [he, hnow] at hdoes
      obtain ⟨hclean, hattempt⟩ := hdoes
      refine ih hclean (fun hmissing => ?_) (fun i hi => ?_) ?_
      · rw [if_pos hmissing] at hattempt
        cases hattempt
      · rw [Nat.add_assoc, Nat.add_comm 1]
        exact hskip (i + 1) (Nat.succ_lt_succ hi)
      · rw [Nat.add_assoc, Nat.add_comm 1]
        exact hend
    · next he =>
      rw [he, hnow] at hdoes
      exact absurd rfl hdoes.2.1

/-- The state in which the loop starts, with the base key open. -/
def Search.start : Search := { baseKey := some 0, keys := Ledger.empty.acquire 0 }

theorem Search.start_clean : Search.start.Clean 0 where
  closable :=
    { numbered := ⟨Ledger.Numbered.empty.acquire, .empty⟩
      keys := Ledger.Live.empty.acquire
      buffers := .empty }
  instance_ := rfl
  subKey := rfl
  infoBuffer := rfl
  infoBufferLength := rfl
  writes := rfl

theorem address_ne_nil (env : Env) (key : Int) : env.address key ≠ [] := List.cons_ne_nil _ _

theorem address_injective {env : Env} {a b : Int} (h : env.address a = env.address b) : a = b := by
  cases List.head_eq_of_cons_eq h
  rfl

/-- An attempt writes the address of an adapter exactly when it finds it, with the property
missing. -/
theorem written_eq_address_iff (env : Env) (a : Attempt) (key : Int) :
    env.written a = env.address key ↔ a = .found key (.error .objectNameNotFound) := by
  constructor
  · intro h
    unfold Env.written at h
    split at h
    · next key' => rw [address_injective h]
    · exact absurd h.symm (address_ne_nil env key)
  · rintro rfl
    rfl

theorem written_eq_nil_iff (env : Env) (a : Attempt) :
    env.written a = [] ↔ ∀ key, a ≠ .found key (.error .objectNameNotFound) := by
  constructor
  · rintro h key rfl
    exact address_ne_nil env key h
  · intro h
    unfold Env.written
    split
    · next key => exact absurd rfl (h key)
    · rfl

/-- The last attempt is at the first adapter that matches, unless `PropertyChangeStatus` is set
there: it is opened, its description is read and matches, and the property is reported missing.
When it is set, or no adapter matches, the last attempt is not at such an adapter. -/
structure Env.LastAt (env : Env) (a : Attempt) : Prop where
  unset : ∀ n, env.FirstMatch n → env.Unset n → a = .found n.1 (.error .objectNameNotFound)
  other : (∀ n, env.FirstMatch n → ¬env.Unset n) →
    ∀ key, a ≠ .found key (.error .objectNameNotFound)

/-- The search comes to an end, and its last attempt is the right one; or there is nothing to be
written and no base key. -/
def Env.Reaches (env : Env) : Prop :=
  match env.openBase with
  | some _ => ∀ n, env.FirstMatch n → ¬env.Unset n
  | none => ∃ t, env.EndsAt t ∧ env.LastAt (env.attempt t)

theorem written_iff_lastAt (env : Env) (a : Attempt) :
    Written env (env.written a) ↔ env.LastAt a := by
  constructor
  · intro h
    refine ⟨fun n hn hunset => ?_, fun hother => ?_⟩
    · exact (written_eq_address_iff env a n.1).1 (h.unset n hn hunset)
    · exact (written_eq_nil_iff env a).1 (h.other hother)
  · intro h
    refine ⟨fun n hn hunset => ?_, fun hother => ?_⟩
    · exact (written_eq_address_iff env a n.1).2 (h.unset n hn hunset)
    · exact (written_eq_nil_iff env a).2 (h.other hother)

theorem rpiqSetNdisMacAddress_of_error {env : Env} {e : Error} (h : env.openBase = some e)
    (fuel : Nat) : rpiqSetNdisMacAddress env false fuel =
      some (Search.finish { status := .error e }) := by
  rw [rpiqSetNdisMacAddress, if_neg Bool.false_ne_true, h]

theorem rpiqSetNdisMacAddress_of_open {env : Env} (h : env.openBase = none) (fuel : Nat) :
    rpiqSetNdisMacAddress env false fuel = search env fuel 0 .start := by
  rw [rpiqSetNdisMacAddress, if_neg Bool.false_ne_true, h]
  rfl

theorem Search.start_status : Search.start.status ≠ .error .objectNameNotFound :=
  fun h => nomatch h

/-- The search has one last attempt only. -/
theorem Env.EndsAt.unique {env : Env} {t u : Nat} (ht : env.EndsAt t) (hu : env.EndsAt u) :
    t = u := by
  rcases Nat.lt_trichotomy t u with hlt | heq | hlt
  · exact absurd (hu.1 t hlt) ht.2
  · exact heq
  · exact absurd (ht.1 u hlt) hu.2

theorem search_start_some {env : Env} {fuel : Nat} {s : Search}
    (h : search env fuel 0 .start = some s) :
    ∃ t, env.EndsAt t ∧ s.writes = env.written (env.attempt t) ∧ Settled s := by
  obtain ⟨j, hskip, hend, hwrites, hsettled⟩ :=
    search_some env Search.start_clean Search.start_status h
  simp only [Nat.zero_add] at hskip hend hwrites
  exact ⟨j, ⟨hskip, hend⟩, hwrites, hsettled⟩

theorem reaches_of_stored {env : Env} : Stored env → env.Reaches := by
  rintro ⟨fuel, s, hs, hwritten, -⟩
  rw [Env.Reaches]
  split
  · next e hbase =>
    intro n hn hunset
    rw [rpiqSetNdisMacAddress_of_error hbase] at hs
    cases hs
    exact address_ne_nil env _ (hwritten.unset n hn hunset).symm
  · next hbase =>
    rw [rpiqSetNdisMacAddress_of_open hbase] at hs
    obtain ⟨t, hend, hwrites, -⟩ := search_start_some hs
    rw [hwrites, written_iff_lastAt] at hwritten
    exact ⟨t, hend, hwritten⟩

theorem stored_of_reaches {env : Env} (h : env.Reaches) : Stored env := by
  rw [Env.Reaches] at h
  split at h
  · next e hbase =>
    refine ⟨0, _, rpiqSetNdisMacAddress_of_error hbase 0,
      ⟨fun n hn hunset => absurd hunset (h n hn), fun _ => rfl⟩, ?_⟩
    exact ⟨⟨List.nodup_nil, List.nodup_nil⟩, .empty, .empty⟩
  · next hbase =>
    obtain ⟨t, hend, hlast⟩ := h
    obtain ⟨s, hs⟩ := search_isSome env (j := t) Search.start_clean Search.start_status
      (by simpa using hend.1) (by simpa using hend.2)
    obtain ⟨u, hend', hwrites, hsettled⟩ := search_start_some hs
    obtain rfl := hend.unique hend'
    refine ⟨t + 2, s, by rw [rpiqSetNdisMacAddress_of_open hbase, hs], ?_, hsettled⟩
    rw [hwrites, written_iff_lastAt]
    exact hlast

/-- **Exactly when the search is right**: when it ends, and its last attempt is the right one. -/
theorem stored_iff (env : Env) : Stored env ↔ env.Reaches :=
  ⟨reaches_of_stored, stored_of_reaches⟩

/-- **What comes back leaves nothing open**, whatever it has written. -/
theorem settled_of_some {env : Env} {macSet : Bool} {fuel : Nat} {s : Search}
    (h : rpiqSetNdisMacAddress env macSet fuel = some s) : Settled s := by
  have hempty : ∀ status, Settled (Search.finish { status := status }) := fun _ =>
    ⟨⟨List.nodup_nil, List.nodup_nil⟩, .empty, .empty⟩
  rw [rpiqSetNdisMacAddress] at h
  split at h
  · cases h
    exact hempty .success
  · split at h
    · cases h
      exact hempty _
    · obtain ⟨_, -, -, hsettled⟩ := search_start_some h
      exact hsettled

/-! ## Two failures -/

/-- Nothing goes wrong, and there is one adapter in the registry, with this description. -/
def oneAdapter (n : Fin 10000) (desc : String) : Env where
  subkey m := if m = n then
    some ⟨some (desc.toList.flatMap fun c => [BitVec.ofNat 8 c.toNat, 0]), none⟩ else none
  upcase := id
  macAddrStr := wide "B827EB000001"
  openBase := none
  faults _ := {}

/-- No key can be opened, for want of memory. -/
def noMemory : Env :=
  { oneAdapter 0 "LAN7800" with
    faults := fun _ => { openKey := some (.other 0xC000009A) } }

example : (oneAdapter 0 "LAN7800 Ethernet").attempt 0 = .found 0 (.error .objectNameNotFound) := by
  decide

/-- The address is written, and the keys are closed. -/
theorem settled_of_some_oneAdapter :
    ∃ s, rpiqSetNdisMacAddress (oneAdapter 0 "LAN7800") false 2 = some s ∧ s.writes ≠ [] ∧
      Settled s := by
  obtain ⟨s, hs, hwrites⟩ : ∃ s, rpiqSetNdisMacAddress (oneAdapter 0 "LAN7800") false 2 = some s ∧
      s.writes ≠ [] := by
    have hany : (rpiqSetNdisMacAddress (oneAdapter 0 "LAN7800") false 2).any (·.writes ≠ []) := by
      decide +kernel
    obtain ⟨s, hs, hwrites⟩ := (Option.any_eq_true _ _).1 hany
    exact ⟨s, hs, of_decide_eq_true hwrites⟩
  exact ⟨s, hs, hwrites, settled_of_some hs⟩

theorem oneAdapter_firstMatch : (oneAdapter 1 "LAN7800").FirstMatch 1 := by
  refine ⟨⟨_, _, rfl, rfl, by decide⟩, fun m hm => ?_⟩
  rintro ⟨k, desc, hk, -⟩
  have hnone : (oneAdapter 1 "LAN7800").subkey m = none := if_neg (Fin.ne_of_lt hm)
  rw [hnone] at hk
  cases hk

theorem noMemory_attempt (t : Nat) : noMemory.attempt t = .skip := by
  unfold Env.attempt
  split
  · rfl
  · rfl

/-- **An adapter behind a gap is not found, and without memory the search goes on for ever.** -/
theorem stored_fails :
    ¬Stored (oneAdapter 1 "LAN7800") ∧
      ∀ fuel, rpiqSetNdisMacAddress noMemory false fuel = none := by
  constructor
  · intro hstored
    obtain ⟨t, hend, hlast⟩ := reaches_of_stored hstored
    have hmissing : (oneAdapter 1 "LAN7800").attempt 0 = .missing := by decide
    obtain rfl : t = 0 :=
      hend.unique ⟨fun j hj => absurd hj j.not_lt_zero, by rw [hmissing]; decide⟩
    have hfound := hlast.unset 1 oneAdapter_firstMatch ⟨_, rfl, rfl⟩
    rw [hmissing] at hfound
    cases hfound
  · intro fuel
    cases hs : rpiqSetNdisMacAddress noMemory false fuel with
    | none => rfl
    | some s =>
      rw [rpiqSetNdisMacAddress_of_open rfl] at hs
      obtain ⟨t, hend, -⟩ := search_start_some hs
      exact absurd (noMemory_attempt t) hend.2

end RpiDrivers.Mailbox.MacAddress
