import RpiDrivers.Lib.ByteMemory
import RpiDrivers.Lib.Records
import RpiDrivers.Lib.Region

/-!
# The arguments of an ACPI output buffer (`acpiutil.cpp`)

The evaluation of an ACPI method returns a buffer of arguments. An argument is a type, the length
of its data, and the data; that of a package is arguments again. `AcpiOutputBufferGetNextArgument`
and `AcpiPackageGetNextArgument` enumerate them: they test that the next argument begins before
the end, but not where its data end.

- `EnumerationSound`: every enumeration ends, and what it returns lies in the buffer and in the
  package.
- `enumerationSound_iff`: **exactly when it is: the bytes of the buffer, and of each package, have
  to be whole arguments**.
- `data_outside`: an argument whose data are longer than the buffer is returned.
-/

namespace RpiDrivers.Acpi

open RpiDrivers.Lib

/-- The `NTSTATUS` values that occur. -/
inductive NtStatus
  | success
  | noMoreEntries
  | notFound
  | acpiInvalidArgtype
  | acpiIncorrectArgumentCount
  | acpiInvalidData
  | nameTooLong
  | bufferTooSmall
  deriving DecidableEq

/-- What the code uses of `acpiioct.h`: the types of arguments, and two macros for the `Length` of
an output buffer, the second of which is the address behind the buffer. -/
structure Acpiioct where
  argumentInteger : Nat
  argumentString : Nat
  argumentPackage : Nat
  /-- `ACPI_EVAL_OUTPUT_BUFFER_ARGUMENT_LENGTH` -/
  argumentLength : Nat → Nat
  /-- `ACPI_EVAL_OUTPUT_BUFFER_ARGUMENTS_END` -/
  argumentsEnd : Nat → Nat → Nat
  argumentsEnd_eq : ∀ buffer length, argumentsEnd buffer length = buffer + length

/-- `sizeof(ACPI_METHOD_ARGUMENT)` -/
def methodArgumentSize : Nat := 8

section Arguments

variable (w : Acpiioct) (m : ByteMemory)

/-- `Type` of the `ACPI_METHOD_ARGUMENT` at an address -/
def argType (a : Nat) : Nat := decode32 (load m a 2)

/-- `DataLength` -/
def dataLength (a : Nat) : Nat := decode32 (load m (a + 2) 2)

/-- The address of `Data`. -/
def data (a : Nat) : Nat := a + 4

/-- The header and the data of an argument. -/
def argument (a : Nat) : Region := ⟨a, 4 + dataLength m a⟩

/-- `ACPI_METHOD_NEXT_ARGUMENT` -/
def nextArgument (a : Nat) : Nat := a + (4 + max (dataLength m a) 4)

/-- `Length` of the `ACPI_EVAL_OUTPUT_BUFFER` at an address -/
def bufferLength (buffer : Nat) : Nat := load32 m (buffer + 4)

/-- What the two enumerations have in common: with `nullptr` they begin at the first argument. -/
def getNextArgument (length first stop : Nat) : Option Nat → NtStatus × Option Nat
  | none => if length < methodArgumentSize then (.noMoreEntries, none) else (.success, some first)
  | some a =>
    if length < methodArgumentSize then (.noMoreEntries, none)
    else if stop ≤ nextArgument m a then (.noMoreEntries, some a)
    else (.success, some (nextArgument m a))

/-- `AcpiOutputBufferGetNextArgument` -/
def acpiOutputBufferGetNextArgument (outputBuffer : Nat) : Option Nat → NtStatus × Option Nat :=
  getNextArgument m (w.argumentLength (bufferLength m outputBuffer)) (outputBuffer + 12)
    (w.argumentsEnd outputBuffer (bufferLength m outputBuffer))

/-- `AcpiPackageGetNextArgument` -/
def acpiPackageGetNextArgument (pkg : Nat) : Option Nat → NtStatus × Option Nat :=
  getNextArgument m (dataLength m pkg) (data pkg) (data pkg + dataLength m pkg)

/-! ## Enumerations -/

/-- The `n`-th call of an enumeration that begins with `nullptr`. -/
def enumerate (getNext : Option Nat → NtStatus × Option Nat) : Nat → NtStatus × Option Nat
  | 0 => getNext none
  | n + 1 => getNext (enumerate getNext n).2

/-- Some call of the enumeration finds no more entries. -/
def Ends (getNext : Option Nat → NtStatus × Option Nat) : Prop :=
  ∃ n, (enumerate getNext n).1 = .noMoreEntries

/-- An enumeration of the buffer, or of a package that one has returned, returns the argument at an
address. The region is that of the arguments among which it is. -/
inductive Returned (buffer : Nat) : Nat → Region → Prop
  | outputBuffer {n a : Nat} :
      enumerate (acpiOutputBufferGetNextArgument w m buffer) n = (.success, some a) →
      Returned buffer a ⟨buffer + 12, bufferLength m buffer - 12⟩
  | package {n p a : Nat} {r : Region} : Returned buffer p r → argType m p = w.argumentPackage →
      enumerate (acpiPackageGetNextArgument m p) n = (.success, some a) →
      Returned buffer a ⟨data p, dataLength m p⟩

/-- **The property**: every enumeration ends, and what it returns lies in the buffer and among the
arguments of its package. -/
structure EnumerationSound (buffer : Nat) : Prop where
  bufferEnds : Ends (acpiOutputBufferGetNextArgument w m buffer)
  packageEnds : ∀ p r, Returned w m buffer p r → argType m p = w.argumentPackage →
    Ends (acpiPackageGetNextArgument m p)
  inside : ∀ a r, Returned w m buffer a r →
    (argument m a).Inside r ∧ (argument m a).Inside ⟨buffer, bufferLength m buffer⟩

/-- Arguments as records. A package has arguments in its data when there is room for one. -/
def layout : RecordLayout where
  extent a := 4 + dataLength m a
  advance a := 4 + max (dataLength m a) 4
  inner a :=
    if argType m a = w.argumentPackage ∧ methodArgumentSize ≤ dataLength m a then
      some (data a, data a + dataLength m a)
    else none
  extent_pos a := by omega
  advance_pos a := by omega
  inner_inside a first stop h := by
    split at h
    next hpkg =>
      obtain ⟨rfl, rfl⟩ := Prod.mk.inj (Option.some.inj h)
      have := hpkg.2
      simp only [data, methodArgumentSize] at this ⊢
      omega
    · cases h

end Arguments

variable {w : Acpiioct} {m : ByteMemory} {length first stop buffer a : Nat}

/-! ## One enumeration -/

theorem getNextArgument_short (h : length < methodArgumentSize) (argument : Option Nat) :
    getNextArgument m length first stop argument = (.noMoreEntries, none) := by
  cases argument <;> rw [getNextArgument, if_pos h]

theorem getNextArgument_next (h : ¬ length < methodArgumentSize) (hlt : nextArgument m a < stop) :
    getNextArgument m length first stop (some a) = (.success, some (nextArgument m a)) := by
  rw [getNextArgument, if_neg h, if_neg (Nat.not_le.2 hlt)]

/-- An enumeration goes over the records of a walk. -/
theorem enumerate_nth (h : ¬ length < methodArgumentSize) {k : Nat}
    (hk : ∀ j < k, (layout w m).nth first (j + 1) < stop) :
    enumerate (getNextArgument m length first stop) k =
      (.success, some ((layout w m).nth first k)) := by
  induction k with
  | zero => exact if_neg h
  | succ k ih =>
    rw [enumerate, ih fun j hj => hk j (Nat.lt_succ_of_lt hj)]
    exact getNextArgument_next h (hk k (Nat.lt_succ_self k))

/-- **Every enumeration ends.** -/
theorem ends_getNextArgument (w : Acpiioct) (m : ByteMemory) (length first stop : Nat) :
    Ends (getNextArgument m length first stop) := by
  by_cases h : length < methodArgumentSize
  · exact ⟨0, congrArg Prod.fst (getNextArgument_short h none)⟩
  · obtain ⟨n, hlast, hbefore⟩ := (layout w m).exists_last first stop
    refine ⟨n + 1, ?_⟩
    rw [enumerate, enumerate_nth h hbefore, getNextArgument, if_neg h]
    exact congrArg Prod.fst (if_pos hlast)

/-- What an enumeration returns is visited by the walk. -/
theorem visited_of_enumerate {start stop' : Nat} (h : ¬ length < methodArgumentSize)
    (hfirst : (layout w m).Visited start stop' first stop) :
    ∀ n, ∃ a, (enumerate (getNextArgument m length first stop) n).2 = some a ∧
      (layout w m).Visited start stop' a stop
  | 0 => ⟨first, congrArg Prod.snd (if_neg h), hfirst⟩
  | n + 1 => by
    obtain ⟨a, ha, hvisited⟩ := visited_of_enumerate h hfirst n
    rw [enumerate, ha, getNextArgument, if_neg h]
    split
    · exact ⟨a, rfl, hvisited⟩
    next hlt => exact ⟨_, rfl, hvisited.next (Nat.not_le.1 hlt)⟩

/-- A package with room for an argument has records inside it. -/
theorem inner_layout (htype : argType m a = w.argumentPackage)
    (h : ¬ dataLength m a < methodArgumentSize) :
    (layout w m).inner a = some (data a, data a + dataLength m a) :=
  if_pos ⟨htype, Nat.not_lt.1 h⟩

/-! ## All enumerations -/

section Buffer

variable {r : Region}

theorem acpiOutputBufferGetNextArgument_eq :
    acpiOutputBufferGetNextArgument w m buffer =
      getNextArgument m (w.argumentLength (bufferLength m buffer)) (buffer + 12)
        (buffer + bufferLength m buffer) := by
  rw [acpiOutputBufferGetNextArgument, w.argumentsEnd_eq]

/-- A buffer that is too short returns nothing. -/
theorem not_returned_of_short (h : w.argumentLength (bufferLength m buffer) < methodArgumentSize) :
    ¬ Returned w m buffer a r := by
  intro hr
  induction hr with
  | @outputBuffer n a hn =>
    cases n <;> rw [enumerate, acpiOutputBufferGetNextArgument, getNextArgument_short h] at hn <;>
      cases hn
  | package _ _ _ ih => exact ih

/-- What is returned is visited. -/
theorem visited_of_returned (hlength : 12 ≤ bufferLength m buffer)
    (h : ¬ w.argumentLength (bufferLength m buffer) < methodArgumentSize)
    (hr : Returned w m buffer a r) :
    (layout w m).Visited (buffer + 12) (buffer + bufferLength m buffer) a r.stop ∧
      r.start ≤ a := by
  induction hr with
  | @outputBuffer n a hn =>
    rw [acpiOutputBufferGetNextArgument_eq] at hn
    obtain ⟨a', ha', hvisited⟩ := visited_of_enumerate (w := w) h .first n
    rw [hn] at ha'
    obtain rfl := Option.some.inj ha'
    have hstop : buffer + 12 + (bufferLength m buffer - 12) = buffer + bufferLength m buffer := by
      omega
    exact ⟨hstop.symm ▸ hvisited, hvisited.le⟩
  | @package n p a r _ htype hn ih =>
    by_cases hshort : dataLength m p < methodArgumentSize
    · cases n <;> rw [enumerate, acpiPackageGetNextArgument, getNextArgument_short hshort] at hn <;>
        cases hn
    · have hinner := inner_layout htype hshort
      obtain ⟨a', ha', hvisited⟩ := visited_of_enumerate hshort (ih.1.inner hinner) n
      obtain ⟨b, hb, hwalk⟩ := visited_of_enumerate (w := w) hshort
        (.first : (layout w m).Visited (data p) (data p + dataLength m p) _ _) n
      rw [acpiPackageGetNextArgument] at hn
      rw [hn] at ha' hb
      obtain rfl := Option.some.inj ha'
      obtain rfl := Option.some.inj hb
      exact ⟨hvisited, hwalk.le⟩

/-- What is visited is returned. -/
theorem returned_of_visited {e : Nat} (hlength : 12 ≤ bufferLength m buffer)
    (h : ¬ w.argumentLength (bufferLength m buffer) < methodArgumentSize)
    (hv : (layout w m).Visited (buffer + 12) (buffer + bufferLength m buffer) a e) :
    ∃ r, Returned w m buffer a r ∧ r.stop = e := by
  -- the enumeration and the call that have returned it
  suffices hcall : ∃ length first n, ¬ length < methodArgumentSize ∧
      enumerate (getNextArgument m length first e) n = (.success, some a) ∧
      ∀ n b, enumerate (getNextArgument m length first e) n = (.success, some b) →
        ∃ r, Returned w m buffer b r ∧ r.stop = e by
    obtain ⟨length, first, n, -, hn, hall⟩ := hcall
    exact hall n a hn
  induction hv with
  | first =>
    refine ⟨_, buffer + 12, 0, h, if_neg h, fun n b hn => ?_⟩
    rw [← acpiOutputBufferGetNextArgument_eq] at hn
    refine ⟨_, .outputBuffer hn, ?_⟩
    show buffer + 12 + (bufferLength m buffer - 12) = _
    omega
  | @next a e _ hlt ih =>
    obtain ⟨length, first, n, hlong, hn, hall⟩ := ih
    refine ⟨length, first, n + 1, hlong, ?_, hall⟩
    rw [enumerate, hn]
    exact getNextArgument_next hlong hlt
  | @inner p e first' stop' _ hinner ih =>
    obtain ⟨_, _, n, _, hn, hall⟩ := ih
    obtain ⟨r, hr, -⟩ := hall n p hn
    rw [layout] at hinner
    dsimp only at hinner
    split at hinner
    next hpkg =>
      obtain ⟨rfl, rfl⟩ := Prod.mk.inj (Option.some.inj hinner)
      have hlong := Nat.not_lt.2 hpkg.2
      exact ⟨dataLength m p, data p, 0, hlong, if_neg hlong, fun n b hn =>
        ⟨_, .package hr hpkg.1 hn, rfl⟩⟩
    · cases hinner

/-- **The enumerations are sound exactly when the buffer has no room for an argument, or its
arguments are framed: each one, and each one in a package, ends before the end.** -/
theorem enumerationSound_iff (w : Acpiioct) (m : ByteMemory) (buffer : Nat) :
    EnumerationSound w m buffer ↔
      w.argumentLength (bufferLength m buffer) < methodArgumentSize ∨
      (layout w m).Framed (buffer + 12) (buffer + bufferLength m buffer) := by
  have hends : ∀ p r, Returned w m buffer p r → argType m p = w.argumentPackage →
      Ends (acpiPackageGetNextArgument m p) := fun p _ _ _ => ends_getNextArgument w ..
  by_cases h : w.argumentLength (bufferLength m buffer) < methodArgumentSize
  · refine iff_of_true ⟨ends_getNextArgument w .., hends, fun a r hr => ?_⟩ (.inl h)
    exact absurd hr (not_returned_of_short h)
  · rw [or_iff_right h]
    constructor
    · intro hsound
      have hfirst := (hsound.inside (buffer + 12) _ (.outputBuffer (n := 0) (if_neg h))).1.2
      simp only [argument, Region.stop] at hfirst
      have hlength : 12 ≤ bufferLength m buffer := by omega
      refine RecordLayout.framed_iff.2 fun a e hv => ?_
      obtain ⟨r, hr, rfl⟩ := returned_of_visited hlength h hv
      exact (hsound.inside a r hr).1.2
    · intro hframed
      have hlength : 12 ≤ bufferLength m buffer := by
        obtain ⟨hfirst, -⟩ := hframed
        omega
      refine ⟨ends_getNextArgument w .., hends, fun a r hr => ?_⟩
      obtain ⟨hvisited, hstart⟩ := visited_of_returned hlength h hr
      obtain ⟨⟨hextent, -, -⟩, hstop⟩ := hframed.of_visited hvisited
      have hbuffer := hvisited.le
      exact ⟨⟨hstart, hextent⟩, Nat.le_trans (Nat.le_add_right ..) hbuffer,
        Nat.le_trans hextent hstop⟩

end Buffer

/-- The header of the WDK. The subtraction is that of a `ULONG`, which wraps. -/
def wdkAcpiioct : Acpiioct where
  argumentInteger := 0
  argumentString := 1
  argumentPackage := 3
  argumentLength length := (length + (2 ^ 32 - 12)) % 2 ^ 32
  argumentsEnd buffer length := buffer + length
  argumentsEnd_eq _ _ := rfl

/-- A buffer of 20 bytes with an argument that claims 100 bytes of data. -/
theorem data_outside :
    ¬ EnumerationSound wdkAcpiioct
      (fun a => if a = 4 then 20 else if a = 14 then 100 else 0) 0 := by
  intro h
  have hreturned := h.inside 12 _ (.outputBuffer (n := 0) rfl)
  exact absurd hreturned (by decide)

end RpiDrivers.Acpi
