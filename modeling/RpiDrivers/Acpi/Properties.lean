import Mathlib.Data.List.TakeWhile
import RpiDrivers.Acpi.Arguments

/-!
# Device properties (`acpiutil.cpp`)

The device properties of a `_DSD` are a package of packages, each with a key string and a value.
`AcpiDevicePropertiesQueryValue` looks for a key. It makes a counted string of the data of each
key, up to the first NUL in memory, and compares it with the requested name.

- `QueryResult`: the status, the value, and which bytes of the keys have been read.
- `HoldPairs`: the bytes of a package read as a list of pairs.
- `QuerySound`: the first pair with the key is found, a value of the wrong type is an error, and
  no key is read beyond its data.
- `querySound_iff`: **exactly when it is: the name is not too long, and the keys up to the first
  match have a NUL in their data**.
- `key_overrun`: a key without a NUL is read beyond its data.
-/

namespace RpiDrivers.Acpi

open RpiDrivers.Lib

/-! ## The functions -/

section Functions

variable (w : Acpiioct) (m : ByteMemory)

/-- How many bytes there are before the first NUL, which is looked for in the first `n` bytes. -/
def strlen (a : Nat) : Nat → Option Nat
  | 0 => none
  | n + 1 => if m a = 0 then some 0 else (strlen (a + 1) n).map (· + 1)

/-- The longest string that a counted string can hold with its NUL. -/
def maxAnsiLength : Nat := 65534

/-- `RtlInitAnsiStringEx`; `none` is `STATUS_NAME_TOO_LONG`, which leaves the counted string as it
was. -/
def rtlInitAnsiStringEx (a : Nat) : Option (List UInt8) :=
  (strlen m a (maxAnsiLength + 1)).map (load m a)

/-- How many bytes `RtlInitAnsiStringEx` reads, at least. -/
def bytesRead (a : Nat) : Nat :=
  match strlen m a (maxAnsiLength + 1) with
  | some n => n + 1
  | none => maxAnsiLength + 2

/-- The key argument that was read, and how many bytes of its data. -/
structure KeyRead where
  key : Nat
  bytes : Nat
  deriving DecidableEq

/-- What `AcpiDevicePropertiesQueryValue` returns, and what it has read of the keys. -/
structure QueryResult where
  status : NtStatus
  value : Option Nat
  reads : List KeyRead
  deriving DecidableEq

/-- A turn of the loop returns, or goes on to the next entry. -/
inductive EntryOutcome
  | done (r : QueryResult)
  | «continue» (read : KeyRead)

/-- The turn of the loop for the list entry at `entry`. The status of `RtlInitAnsiStringEx` is not
looked at: `leftover` is what the string holds when it fails. -/
def queryEntry (leftover keyName : List UInt8) (entry : Nat) : EntryOutcome :=
  if argType m entry ≠ w.argumentPackage then .done ⟨.acpiInvalidArgtype, none, []⟩
  else match acpiPackageGetNextArgument m entry none with
  | (.success, some key) =>
    if argType m key ≠ w.argumentString then .done ⟨.acpiInvalidData, none, []⟩
    else
      let read := KeyRead.mk key (bytesRead m (data key))
      if (rtlInitAnsiStringEx m (data key)).getD leftover ≠ keyName then .continue read
      else match acpiPackageGetNextArgument m entry (some key) with
      | (.success, some value) => .done ⟨.success, some value, [read]⟩
      | _ => .done ⟨.acpiIncorrectArgumentCount, none, [read]⟩
  | _ => .done ⟨.acpiIncorrectArgumentCount, none, []⟩

/-- The loop of `AcpiDevicePropertiesQueryValue`, from the current list entry on; `none` when the
fuel does not last. -/
def queryFrom (leftover keyName : List UInt8) (pkg : Nat) : Nat → Option Nat → Option QueryResult
  | 0, _ => none
  | fuel + 1, current =>
    match acpiPackageGetNextArgument m pkg current with
    | (.success, some entry) =>
      match queryEntry w m leftover keyName entry with
      | .done r => some r
      | .continue read =>
        (queryFrom leftover keyName pkg fuel (some entry)).map fun r =>
          { r with reads := read :: r.reads }
    | _ => some ⟨.notFound, none, []⟩

/-- `AcpiDevicePropertiesQueryValue` -/
def acpiDevicePropertiesQueryValue (leftover keyName : List UInt8) (pkg : Nat) :
    Option QueryResult :=
  if argType m pkg ≠ w.argumentPackage then some ⟨.acpiInvalidArgtype, none, []⟩
  else if maxAnsiLength < keyName.length then some ⟨.nameTooLong, none, []⟩
  else queryFrom w m leftover keyName pkg (dataLength m pkg + 1) none

/-- `AcpiArgumentParseInteger` -/
def acpiArgumentParseInteger (a : Nat) : Except NtStatus Nat :=
  if argType m a ≠ w.argumentInteger || dataLength m a ≠ 4 then .error .acpiInvalidArgtype
  else .ok (load32 m (data a))

/-- `AcpiArgumentParseString`, with what is copied -/
def acpiArgumentParseString (maxLength : Nat) (a : Nat) : Except NtStatus (List UInt8) :=
  if argType m a ≠ w.argumentString then .error .acpiInvalidArgtype
  else if maxLength < dataLength m a then .error .bufferTooSmall
  else .ok (load m (data a) (dataLength m a))

/-- A query whose value is parsed: `AcpiDevicePropertiesQueryIntegerValue` and
`AcpiDevicePropertiesQueryStringValue`. -/
def queryParsed {α : Type} (parse : Nat → Except NtStatus α) (leftover keyName : List UInt8)
    (pkg : Nat) : Option (Except NtStatus α) :=
  if argType m pkg ≠ w.argumentPackage then some (.error .acpiInvalidArgtype)
  else (acpiDevicePropertiesQueryValue w m leftover keyName pkg).map fun r =>
    match r.status, r.value with
    | .success, some value => parse value
    | status, _ => .error status

def acpiDevicePropertiesQueryIntegerValue (leftover keyName : List UInt8) (pkg : Nat) :
    Option (Except NtStatus Nat) :=
  queryParsed w m (acpiArgumentParseInteger w m) leftover keyName pkg

def acpiDevicePropertiesQueryStringValue (maxLength : Nat) (leftover keyName : List UInt8)
    (pkg : Nat) : Option (Except NtStatus (List UInt8)) :=
  queryParsed w m (acpiArgumentParseString w m maxLength) leftover keyName pkg

end Functions

/-! ## What the bytes say -/

/-- An argument, as it is read. -/
structure Argument where
  type : Nat
  data : List UInt8

/-- The argument is at an address. -/
structure Argument.HoldsAt (m : ByteMemory) (a : Nat) (x : Argument) : Prop where
  type : argType m a = x.type
  length : dataLength m a = x.data.length
  data : load m (Acpi.data a) x.data.length = x.data

/-- The arguments are one behind the other, up to `stop`. -/
def HoldAll (m : ByteMemory) : Nat → Nat → List Argument → Prop
  | a, stop, [] => a = stop
  | a, stop, x :: xs => x.HoldsAt m a ∧ HoldAll m (nextArgument m a) stop xs

/-- A key, its value, and members that do not belong to a pair. -/
structure Pair where
  key : Argument
  value : Argument
  extra : List Argument

/-- A package with the members of a pair is at an address. -/
structure Pair.HoldsAt (w : Acpiioct) (m : ByteMemory) (a : Nat) (p : Pair) : Prop where
  package : argType m a = w.argumentPackage
  key : p.key.type = w.argumentString
  members : HoldAll m (data a) (data a + dataLength m a) (p.key :: p.value :: p.extra)

/-- The pairs are one behind the other, up to `stop`. -/
def HoldPairs (w : Acpiioct) (m : ByteMemory) : Nat → Nat → List Pair → Prop
  | a, stop, [] => a = stop
  | a, stop, p :: ps => p.HoldsAt w m a ∧ HoldPairs w m (nextArgument m a) stop ps

/-- The package at an address is well formed, and reads as a list of pairs. -/
structure WellFormed (w : Acpiioct) (m : ByteMemory) (pkg : Nat) (pairs : List Pair) : Prop where
  package : argType m pkg = w.argumentPackage
  pairs : HoldPairs w m (data pkg) (data pkg + dataLength m pkg) pairs

/-- The string of a key: its data up to the NUL, if there is one. -/
def Argument.string? (x : Argument) : Option (List UInt8) :=
  if 0 ∈ x.data then some (x.data.takeWhile (· ≠ 0)) else none

/-- **First-match lookup.** -/
def lookup (keyName : List UInt8) (pairs : List Pair) : Option Argument :=
  (pairs.find? fun p => p.key.string? == some keyName).map Pair.value

/-- What a query for an integer has to return for a value. -/
def Argument.integer (w : Acpiioct) (x : Argument) : Except NtStatus Nat :=
  if x.type = w.argumentInteger ∧ x.data.length = 4 then .ok (decode32 x.data)
  else .error .acpiInvalidArgtype

/-- What a query for a string has to return for a value. -/
def Argument.stringValue (w : Acpiioct) (maxLength : Nat) (x : Argument) :
    Except NtStatus (List UInt8) :=
  if x.type ≠ w.argumentString then .error .acpiInvalidArgtype
  else if maxLength < x.data.length then .error .bufferTooSmall
  else .ok x.data

/-- The result is the value that the lookup finds. -/
def FindsValue (m : ByteMemory) (x : Option Argument) (r : QueryResult) : Prop :=
  match x with
  | none => r.status = .notFound ∧ r.value = none
  | some x => r.status = .success ∧ ∃ a, r.value = some a ∧ x.HoldsAt m a

/-- **The property.** -/
structure QuerySound (w : Acpiioct) (m : ByteMemory) (leftover keyName : List UInt8) (pkg : Nat)
    (pairs : List Pair) : Prop where
  value : ∃ r, acpiDevicePropertiesQueryValue w m leftover keyName pkg = some r ∧
    FindsValue m (lookup keyName pairs) r ∧ ∀ read ∈ r.reads, read.bytes ≤ dataLength m read.key
  integer : acpiDevicePropertiesQueryIntegerValue w m leftover keyName pkg =
    some ((lookup keyName pairs).elim (.error .notFound) (Argument.integer w))
  string : ∀ maxLength, acpiDevicePropertiesQueryStringValue w m maxLength leftover keyName pkg =
    some ((lookup keyName pairs).elim (.error .notFound) (Argument.stringValue w maxLength))

/-- The keys up to the first one that is equal to the name have a NUL in their data. -/
def TerminatedUpTo (keyName : List UInt8) : List Pair → Prop
  | [] => True
  | p :: ps =>
    match p.key.string? with
    | none => False
    | some s => s = keyName ∨ TerminatedUpTo keyName ps

variable {w : Acpiioct} {m : ByteMemory} {leftover keyName : List UInt8}

/-! ## Strings -/

theorem dataLength_lt (m : ByteMemory) (a : Nat) : dataLength m a < 65536 := by
  simp only [dataLength, load, List.range_succ, List.range_zero, decode32]
  have h₀ := (m (a + 2 + 0)).toNat_lt
  have h₁ := (m (a + 2 + 1)).toNat_lt
  simp only [List.nil_append, List.map_cons, List.map_nil, List.cons_append, List.foldr_cons,
    List.foldr_nil]
  omega

theorem load_cons {a : Nat} {b : UInt8} {bytes : List UInt8}
    (h : load m a (b :: bytes).length = b :: bytes) :
    m a = b ∧ load m (a + 1) bytes.length = bytes := by
  have hsplit : load m a ([b] ++ bytes).length = [b] ++ bytes := h
  have hload := load_of_load_append hsplit
  exact ⟨List.head_eq_of_cons_eq hload.1, hload.2⟩

/-- The length of a string whose NUL is in the data. -/
theorem strlen_of_mem {bytes : List UInt8} : ∀ {a n : Nat}, load m a bytes.length = bytes →
    0 ∈ bytes → bytes.length ≤ n → strlen m a n = some (bytes.takeWhile (· ≠ 0)).length := by
  induction bytes with
  | nil => exact fun _ h => absurd h List.not_mem_nil
  | cons b bytes ih =>
    intro a n hload hmem hle
    obtain ⟨hb, hrest⟩ := load_cons hload
    cases n with
    | zero => exact absurd hle (Nat.not_succ_le_zero _)
    | succ n =>
      rw [strlen, hb]
      by_cases hzero : b = 0
      · rw [if_pos hzero, List.takeWhile_cons_of_neg (by simpa using hzero), List.length_nil]
      · have hmem' : 0 ∈ bytes := (List.mem_cons.1 hmem).resolve_left (Ne.symm hzero)
        rw [if_neg hzero, ih hrest hmem' (Nat.le_of_succ_le_succ hle),
          List.takeWhile_cons_of_pos (by simpa using hzero)]
        rfl

/-- A string whose NUL is not in the data is longer than these. -/
theorem le_of_strlen {bytes : List UInt8} : ∀ {a n k : Nat}, load m a bytes.length = bytes →
    0 ∉ bytes → strlen m a n = some k → bytes.length ≤ k := by
  induction bytes with
  | nil => exact fun _ _ _ => Nat.zero_le _
  | cons b bytes ih =>
    intro a n k hload hmem hlen
    obtain ⟨hb, hrest⟩ := load_cons hload
    cases n with
    | zero => cases hlen
    | succ n =>
      have hne : b ≠ 0 := fun hzero => hmem (List.mem_cons.2 (.inl hzero.symm))
      rw [strlen, hb, if_neg hne] at hlen
      obtain ⟨k, hk, rfl⟩ := Option.map_eq_some_iff.1 hlen
      exact Nat.succ_le_succ (ih hrest (fun h => hmem (List.mem_cons_of_mem b h)) hk)

namespace Argument.HoldsAt

variable {a : Nat} {x : Argument}

/-- A key with a NUL is read up to it. -/
theorem string (h : x.HoldsAt m a) (hnul : 0 ∈ x.data) :
    rtlInitAnsiStringEx m (Acpi.data a) = some (x.data.takeWhile (· ≠ 0)) ∧
      bytesRead m (Acpi.data a) ≤ dataLength m a := by
  have hlt := dataLength_lt m a
  rw [h.length] at hlt ⊢
  have hlen := strlen_of_mem h.data hnul (n := maxAnsiLength + 1) (by
    rw [maxAnsiLength]
    omega)
  have hsplit : x.data.takeWhile (· ≠ 0) ++ x.data.dropWhile (· ≠ 0) = x.data :=
    List.takeWhile_append_dropWhile
  have hload := h.data
  rw [← hsplit] at hload
  have hshort : (x.data.takeWhile (· ≠ 0)).length < x.data.length := by
    refine Nat.lt_of_le_of_ne (List.takeWhile_prefix _).length_le fun heq => ?_
    have hall := (List.takeWhile_prefix _).eq_of_length heq
    simpa using List.mem_takeWhile_imp (hall.symm ▸ hnul : 0 ∈ x.data.takeWhile (· ≠ 0))
  refine ⟨?_, ?_⟩
  · rw [rtlInitAnsiStringEx, hlen]
    exact congrArg some (load_of_load_append hload).1
  · rw [bytesRead, hlen]
    exact hshort

/-- A key without a NUL is read beyond its data. -/
theorem overrun (h : x.HoldsAt m a) (hnul : 0 ∉ x.data) :
    dataLength m a < bytesRead m (Acpi.data a) := by
  have hlt := dataLength_lt m a
  rw [bytesRead]
  rw [h.length] at hlt ⊢
  split
  next n hn => exact Nat.lt_succ_of_le (le_of_strlen h.data hnul hn)
  next hn =>
    rw [maxAnsiLength]
    omega

theorem integer_eq (h : x.HoldsAt m a) : acpiArgumentParseInteger w m a = x.integer w := by
  rw [acpiArgumentParseInteger, Argument.integer, h.type, h.length]
  by_cases hint : x.type = w.argumentInteger ∧ x.data.length = 4
  · have hload : load32 m (Acpi.data a) = decode32 x.data := by
      rw [load32, ← hint.2, h.data]
    rw [if_pos hint, if_neg (by simp [hint]), hload]
  · rw [if_neg hint, if_pos]
    simpa [Classical.or_iff_not_imp_left] using hint

theorem stringValue_eq (h : x.HoldsAt m a) (maxLength : Nat) :
    acpiArgumentParseString w m maxLength a = x.stringValue w maxLength := by
  rw [acpiArgumentParseString, Argument.stringValue, h.type, h.length, h.data]

end Argument.HoldsAt

/-! ## One entry -/

theorem HoldAll.le {stop : Nat} : ∀ {xs : List Argument} {a : Nat}, HoldAll m a stop xs → a ≤ stop
  | [], _, h => Nat.le_of_eq h
  | _ :: _, a, h => by
    have := HoldAll.le h.2
    rw [nextArgument] at this
    omega

section Entry

variable {p : Pair} {a : Nat}

/-- The first call of the enumeration of a pair returns its key, the second one its value. -/
theorem Pair.HoldsAt.enumerate (h : p.HoldsAt w m a) :
    p.key.HoldsAt m (data a) ∧ p.value.HoldsAt m (nextArgument m (data a)) ∧
      acpiPackageGetNextArgument m a none = (.success, some (data a)) ∧
      acpiPackageGetNextArgument m a (some (data a)) =
        (.success, some (nextArgument m (data a))) := by
  obtain ⟨hkey, hvalue, hrest⟩ := h.members
  have hnext := HoldAll.le hrest
  have hsize : 8 ≤ nextArgument m (data a) - data a ∧
      nextArgument m (data a) + 8 ≤ nextArgument m (nextArgument m (data a)) := by
    simp only [nextArgument]
    omega
  have hlong : ¬ dataLength m a < methodArgumentSize := by
    rw [methodArgumentSize]
    omega
  refine ⟨hkey, hvalue, if_neg hlong, getNextArgument_next hlong ?_⟩
  omega

/-- An entry whose key has no NUL is read beyond its key, whatever comes of it. -/
theorem queryEntry_overrun (leftover keyName : List UInt8) (h : p.HoldsAt w m a)
    (hnul : p.key.string? = none) :
    ∃ read : KeyRead, dataLength m read.key < read.bytes ∧
      (queryEntry w m leftover keyName a = .continue read ∨
        ∃ r : QueryResult, queryEntry w m leftover keyName a = .done r ∧ read ∈ r.reads) := by
  obtain ⟨hkey, -, hfirst, hsecond⟩ := h.enumerate
  have hmem : 0 ∉ p.key.data := fun hmem => by
    rw [Argument.string?, if_pos hmem] at hnul
    cases hnul
  refine ⟨⟨data a, bytesRead m (data (data a))⟩, hkey.overrun hmem, ?_⟩
  rw [queryEntry, if_neg (not_not.2 h.package), hfirst]
  dsimp only
  rw [if_neg (not_not.2 (hkey.type.trans h.key)), hsecond]
  split
  · exact .inl rfl
  · exact .inr ⟨_, rfl, List.mem_singleton_self _⟩

/-- An entry whose key is a string is compared with the name. -/
theorem queryEntry_string (leftover keyName : List UInt8) (h : p.HoldsAt w m a) {s : List UInt8}
    (hs : p.key.string? = some s) :
    ∃ read : KeyRead, read.bytes ≤ dataLength m read.key ∧
      queryEntry w m leftover keyName a =
        if s = keyName then .done ⟨.success, some (nextArgument m (data a)), [read]⟩
        else .continue read := by
  obtain ⟨hkey, -, hfirst, hsecond⟩ := h.enumerate
  rw [Argument.string?] at hs
  split at hs
  next hmem =>
    obtain ⟨hstring, hread⟩ := hkey.string hmem
    refine ⟨⟨data a, bytesRead m (data (data a))⟩, hread, ?_⟩
    rw [queryEntry, if_neg (not_not.2 h.package), hfirst]
    dsimp only
    rw [if_neg (not_not.2 (hkey.type.trans h.key)), hsecond, hstring, Option.getD_some,
      Option.some.inj hs, ite_not]
  · cases hs

end Entry

/-! ## The loop -/

section Loop

variable {pkg b stop : Nat} {ps : List Pair}

theorem HoldPairs.le : ∀ {ps : List Pair} {b : Nat}, HoldPairs w m b stop ps →
    b + 8 * ps.length ≤ stop
  | [], _, h => Nat.le_of_eq h
  | p :: ps, b, h => by
    have := HoldPairs.le h.2
    rw [nextArgument] at this
    rw [List.length_cons]
    omega

/-- The next call returns the entry at `b`, or there is none. -/
def NextIs (m : ByteMemory) (pkg : Nat) (current : Option Nat) (b : Nat) (ps : List Pair) : Prop :=
  if ps = [] then (acpiPackageGetNextArgument m pkg current).1 = .noMoreEntries
  else acpiPackageGetNextArgument m pkg current = (.success, some b)

/-- The loop begins with the first pair. -/
theorem nextIs_first (h : HoldPairs w m (data pkg) (data pkg + dataLength m pkg) ps) :
    NextIs m pkg none (data pkg) ps := by
  have hle := HoldPairs.le h
  cases ps with
  | nil =>
    have hshort : dataLength m pkg < methodArgumentSize := by
      have : data pkg = data pkg + dataLength m pkg := h
      rw [methodArgumentSize]
      omega
    exact congrArg Prod.fst (getNextArgument_short hshort none)
  | cons p ps =>
    rw [List.length_cons] at hle
    have hlong : ¬ dataLength m pkg < methodArgumentSize := by
      rw [methodArgumentSize]
      omega
    exact if_neg hlong

/-- After an entry it goes on to the next pair. -/
theorem nextIs_next {p : Pair} (hb : data pkg ≤ b)
    (h : HoldPairs w m b (data pkg + dataLength m pkg) (p :: ps)) :
    NextIs m pkg (some b) (nextArgument m b) ps := by
  have hle := HoldPairs.le h
  have hrest := HoldPairs.le h.2
  rw [List.length_cons] at hle
  have hlong : ¬ dataLength m pkg < methodArgumentSize := by
    rw [methodArgumentSize]
    omega
  cases ps with
  | nil =>
    have hstop : nextArgument m b = data pkg + dataLength m pkg := h.2
    show (getNextArgument m _ _ _ (some b)).1 = _
    rw [getNextArgument, if_neg hlong, if_pos hstop.ge]
  | cons q ps =>
    rw [List.length_cons] at hrest
    exact getNextArgument_next hlong (by omega)

/-- A turn of the loop. -/
theorem queryFrom_entry {current : Option Nat} (fuel : Nat)
    (h : acpiPackageGetNextArgument m pkg current = (.success, some b)) :
    queryFrom w m leftover keyName pkg (fuel + 1) current =
      match queryEntry w m leftover keyName b with
      | .done r => some r
      | .continue read =>
        (queryFrom w m leftover keyName pkg fuel (some b)).map fun r =>
          { r with reads := read :: r.reads } := by
  rw [queryFrom, h]

theorem lookup_cons_eq {p : Pair} (h : p.key.string? = some keyName) :
    lookup keyName (p :: ps) = some p.value := by
  rw [lookup, List.find?_cons_of_pos (by simp [h])]
  rfl

theorem lookup_cons_ne {p : Pair} (h : p.key.string? ≠ some keyName) :
    lookup keyName (p :: ps) = lookup keyName ps := by
  rw [lookup, List.find?_cons_of_neg (by simpa using h)]
  rfl

/-- With terminated keys the loop finds what the lookup finds, and reads no key too far. -/
theorem queryFrom_terminated (leftover : List UInt8) :
    ∀ {ps : List Pair} {fuel b : Nat} {current : Option Nat},
    HoldPairs w m b (data pkg + dataLength m pkg) ps → data pkg ≤ b → NextIs m pkg current b ps →
    ps.length < fuel → TerminatedUpTo keyName ps →
    ∃ r, queryFrom w m leftover keyName pkg fuel current = some r ∧
      FindsValue m (lookup keyName ps) r ∧
      ∀ read ∈ r.reads, read.bytes ≤ dataLength m read.key := by
  intro ps
  induction ps with
  | nil =>
    rintro (_ | fuel) b current h _ hnext hfuel _
    · cases hfuel
    · refine ⟨⟨.notFound, none, []⟩, ?_, ⟨rfl, rfl⟩, fun _ hmem => absurd hmem List.not_mem_nil⟩
      have hnone : (acpiPackageGetNextArgument m pkg current).1 = .noMoreEntries := hnext
      rw [queryFrom]
      split
      next hsome => cases hnone.symm.trans (congrArg Prod.fst hsome)
      · rfl
  | cons p ps ih =>
    rintro (_ | fuel) b current h hb hnext hfuel hterm
    · cases hfuel
    rw [TerminatedUpTo] at hterm
    split at hterm
    · cases hterm
    next s hs =>
      obtain ⟨read, hread, hentry⟩ := queryEntry_string leftover keyName h.1 hs
      rw [queryFrom_entry fuel hnext, hentry]
      by_cases heq : s = keyName
      · rw [if_pos heq, lookup_cons_eq (heq ▸ hs)]
        refine ⟨_, rfl, ⟨rfl, _, rfl, h.1.enumerate.2.1⟩, fun read' hmem => ?_⟩
        exact List.mem_singleton.1 hmem ▸ hread
      · have hle : b ≤ nextArgument m b := Nat.le_add_right ..
        obtain ⟨r, hr, hfinds, hreads⟩ := ih h.2 (hb.trans hle) (nextIs_next hb h)
          (Nat.lt_of_succ_lt_succ hfuel) (hterm.resolve_left heq)
        rw [if_neg heq, lookup_cons_ne fun hs' => heq (Option.some.inj (hs.symm.trans hs')), hr]
        refine ⟨_, rfl, ?_, fun read' hmem => ?_⟩
        · cases hfound : lookup keyName ps <;> rw [hfound] at hfinds <;> exact hfinds
        · rcases List.mem_cons.1 hmem with rfl | hmem
          · exact hread
          · exact hreads read' hmem

/-- When a key without a NUL comes up before the name is found, it is read beyond its data. -/
theorem queryFrom_overrun (leftover : List UInt8) :
    ∀ {ps : List Pair} {fuel b : Nat} {current : Option Nat},
    HoldPairs w m b (data pkg + dataLength m pkg) ps → data pkg ≤ b → NextIs m pkg current b ps →
    ps.length < fuel → ¬ TerminatedUpTo keyName ps →
    ∃ r, queryFrom w m leftover keyName pkg fuel current = some r ∧
      ∃ read ∈ r.reads, dataLength m read.key < read.bytes := by
  intro ps
  induction ps with
  | nil => exact fun _ _ _ _ hnot => absurd trivial hnot
  | cons p ps ih =>
    rintro (_ | fuel) b current h hb hnext hfuel hterm
    · cases hfuel
    have hb' : data pkg ≤ nextArgument m b := hb.trans (Nat.le_add_right ..)
    have hnext' := nextIs_next hb h
    have hfuel' : ps.length < fuel := Nat.lt_of_succ_lt_succ hfuel
    rw [queryFrom_entry fuel hnext]
    rw [TerminatedUpTo] at hterm
    split at hterm
    next hs =>
      obtain ⟨read, hread, hentry⟩ := queryEntry_overrun leftover keyName h.1 hs
      rcases hentry with hentry | ⟨r, hentry, hmem⟩ <;> rw [hentry]
      · -- the loop goes on, and ends in either way
        obtain ⟨r, hr⟩ : ∃ r, queryFrom w m leftover keyName pkg fuel (some b) = some r := by
          by_cases hrest : TerminatedUpTo keyName ps
          · obtain ⟨r, hr, -⟩ := queryFrom_terminated leftover h.2 hb' hnext' hfuel' hrest
            exact ⟨r, hr⟩
          · obtain ⟨r, hr, -⟩ := ih h.2 hb' hnext' hfuel' hrest
            exact ⟨r, hr⟩
        rw [hr]
        exact ⟨_, rfl, read, List.mem_cons_self, hread⟩
      · exact ⟨r, rfl, read, hmem, hread⟩
    next s hs =>
      obtain ⟨hne, hrest⟩ := not_or.1 hterm
      obtain ⟨read, -, hentry⟩ := queryEntry_string leftover keyName h.1 hs
      obtain ⟨r, hr, read', hmem, hread'⟩ := ih h.2 hb' hnext' hfuel' hrest
      rw [hentry, if_neg hne, hr]
      exact ⟨_, rfl, read', List.mem_cons_of_mem read hmem, hread'⟩

end Loop

/-! ## The main result -/

/-- What is parsed of a value that is found is what the lookup says. -/
theorem queryParsed_eq {α : Type} {parse : Nat → Except NtStatus α}
    {value : Argument → Except NtStatus α} {pkg : Nat} {x : Option Argument} {r : QueryResult}
    (hpkg : argType m pkg = w.argumentPackage)
    (hr : acpiDevicePropertiesQueryValue w m leftover keyName pkg = some r)
    (hx : FindsValue m x r) (hparse : ∀ y a, y.HoldsAt m a → parse a = value y) :
    queryParsed w m parse leftover keyName pkg = some (x.elim (.error .notFound) value) := by
  rw [queryParsed, if_neg (not_not.2 hpkg), hr]
  obtain ⟨status, val, reads⟩ := r
  cases x with
  | none =>
    obtain ⟨rfl, rfl⟩ := hx
    rfl
  | some y =>
    obtain ⟨rfl, a, rfl, ha⟩ := hx
    exact congrArg some (hparse y a ha)

/-- **The query is a first-match lookup that reads no key too far exactly when the name is not too
long and the keys up to the first match have a NUL in their data.** -/
theorem querySound_iff {pkg : Nat} {pairs : List Pair} (leftover keyName : List UInt8)
    (h : WellFormed w m pkg pairs) :
    QuerySound w m leftover keyName pkg pairs ↔
      keyName.length ≤ maxAnsiLength ∧ TerminatedUpTo keyName pairs := by
  have hfuel : pairs.length < dataLength m pkg + 1 := by
    have := h.pairs.le
    omega
  by_cases hlong : maxAnsiLength < keyName.length
  · refine iff_of_false (fun hsound => ?_) fun hok => absurd hlong (Nat.not_lt.2 hok.1)
    obtain ⟨r, hr, hfinds, -⟩ := hsound.value
    rw [acpiDevicePropertiesQueryValue, if_neg (not_not.2 h.package), if_pos hlong] at hr
    obtain rfl := Option.some.inj hr
    cases hx : lookup keyName pairs <;> rw [hx] at hfinds <;> cases hfinds.1
  · rw [and_iff_right (Nat.not_lt.1 hlong)]
    have hquery : acpiDevicePropertiesQueryValue w m leftover keyName pkg =
        queryFrom w m leftover keyName pkg (dataLength m pkg + 1) none := by
      rw [acpiDevicePropertiesQueryValue, if_neg (not_not.2 h.package), if_neg hlong]
    constructor
    · intro hsound
      by_contra hterm
      obtain ⟨r, hr, read, hmem, hread⟩ := queryFrom_overrun leftover h.pairs (le_refl _)
        (nextIs_first h.pairs) hfuel hterm
      obtain ⟨r', hr', -, hreads⟩ := hsound.value
      obtain rfl := Option.some.inj ((hquery.trans hr).symm.trans hr')
      exact absurd hread (Nat.not_lt.2 (hreads read hmem))
    · intro hterm
      obtain ⟨r, hr, hfinds, hreads⟩ := queryFrom_terminated leftover h.pairs (le_refl _)
        (nextIs_first h.pairs) hfuel hterm
      have hvalue := hquery.trans hr
      exact {
        value := ⟨r, hvalue, hfinds, hreads⟩
        integer := queryParsed_eq h.package hvalue hfinds fun y a hy => hy.integer_eq
        string := fun maxLength => queryParsed_eq h.package hvalue hfinds fun y a hy =>
          hy.stringValue_eq maxLength }

/-- The bytes of a package with one pair, whose key has these four bytes. -/
def onePair (a b c d : UInt8) : ByteMemory := fun x =>
  [3, 0, 20, 0, 3, 0, 16, 0, 1, 0, 4, 0, a, b, c, d, 0, 0, 4, 0, 7, 0, 0, 0].getD x 0

theorem wellFormed_onePair (a b c d : UInt8) :
    WellFormed wdkAcpiioct (onePair a b c d) 0 [⟨⟨1, [a, b, c, d]⟩, ⟨0, [7, 0, 0, 0]⟩, []⟩] := by
  have hvalue : nextArgument (onePair a b c d) 8 = 16 := rfl
  have hend : nextArgument (onePair a b c d) 16 = 24 := rfl
  have hmembers : HoldAll (onePair a b c d) 8 24 [⟨1, [a, b, c, d]⟩, ⟨0, [7, 0, 0, 0]⟩] := by
    refine ⟨⟨rfl, rfl, rfl⟩, ?_⟩
    rw [hvalue]
    exact ⟨⟨rfl, rfl, rfl⟩, hend⟩
  exact { package := rfl, pairs := ⟨{ package := rfl, key := rfl, members := hmembers }, rfl⟩ }

/-- The bytes of a package with two pairs, with keys `b` and `a`. The second one has a member after
its value. -/
def twoPairs : ByteMemory := fun x =>
  [3, 0, 48, 0, 3, 0, 16, 0, 1, 0, 4, 0, 98, 0, 0, 0, 0, 0, 4, 0, 5, 0, 0, 0,
    3, 0, 24, 0, 1, 0, 4, 0, 97, 0, 0, 0, 0, 0, 4, 0, 7, 0, 0, 0, 0, 0, 4, 0, 9, 0, 0, 0].getD x 0

theorem wellFormed_twoPairs : WellFormed wdkAcpiioct twoPairs 0
    [⟨⟨1, [98, 0, 0, 0]⟩, ⟨0, [5, 0, 0, 0]⟩, []⟩,
      ⟨⟨1, [97, 0, 0, 0]⟩, ⟨0, [7, 0, 0, 0]⟩, [⟨0, [9, 0, 0, 0]⟩]⟩] where
  package := rfl
  pairs := by
    refine ⟨⟨rfl, rfl, ⟨rfl, rfl, rfl⟩, ?_⟩, ⟨rfl, rfl, ⟨rfl, rfl, rfl⟩, ?_⟩, rfl⟩
    · exact ⟨⟨rfl, rfl, rfl⟩, rfl⟩
    · exact ⟨⟨rfl, rfl, rfl⟩, ⟨rfl, rfl, rfl⟩, rfl⟩

/-- The key of the first pair is another one, that of the second pair is `a`, with its NUL. -/
theorem querySound_iff_twoPairs :
    QuerySound wdkAcpiioct twoPairs [] [97] 0
      [⟨⟨1, [98, 0, 0, 0]⟩, ⟨0, [5, 0, 0, 0]⟩, []⟩,
        ⟨⟨1, [97, 0, 0, 0]⟩, ⟨0, [7, 0, 0, 0]⟩, [⟨0, [9, 0, 0, 0]⟩]⟩] :=
  (querySound_iff [] [97] wellFormed_twoPairs).2 ⟨by decide, .inr (.inl (by decide))⟩

/-- The key `abcd`, without a NUL: five bytes of it are read. -/
theorem key_overrun :
    WellFormed wdkAcpiioct (onePair 97 98 99 100) 0
      [⟨⟨1, [97, 98, 99, 100]⟩, ⟨0, [7, 0, 0, 0]⟩, []⟩] ∧
    ¬ QuerySound wdkAcpiioct (onePair 97 98 99 100) [] [97] 0
      [⟨⟨1, [97, 98, 99, 100]⟩, ⟨0, [7, 0, 0, 0]⟩, []⟩] := by
  refine ⟨wellFormed_onePair 97 98 99 100, fun h => ?_⟩
  obtain ⟨r, hr, -, hreads⟩ := h.value
  have hquery : acpiDevicePropertiesQueryValue wdkAcpiioct (onePair 97 98 99 100) [] [97] 0 =
      some ⟨.notFound, none, [⟨8, 5⟩]⟩ := by
    decide +kernel
  obtain rfl := Option.some.inj (hquery.symm.trans hr)
  exact absurd (hreads ⟨8, 5⟩ (List.mem_singleton_self _)) (by decide)

end RpiDrivers.Acpi
