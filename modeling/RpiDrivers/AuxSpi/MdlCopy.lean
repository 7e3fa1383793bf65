import RpiDrivers.AuxSpi.Fifo

/-!
# Copying between a buffer and a chain of MDLs (`bcmauxspi.cpp`)

`copyBytesToMdl` and `copyBytesFromMdl` copy byte by byte from where a cursor is in a chain of MDLs,
and leave the cursor behind the last byte. Before a byte is copied, and once more at the end, the
loop moves over MDLs that are used up; behind the last one the cursor is the null pointer, and a
call with it fails the assertion.

- `Copy.loop`: the loop; without a result for an access that is outside its object.
- `copyBytes_eq`: it always ends, and does what `Cursor.copyTo` and `Cursor.copyFrom` do.
- `copyFlat`: the same in flat memory; `finish_flat`: **an MDL chain is flat memory**.
- `copyChunks_eq`: chunks that are copied one after another are copied **as one sequence**, exactly
  when every call finds an MDL.
-/

namespace RpiDrivers.AuxSpi

open RpiDrivers.Lib

/-! ## The loop -/

/-- The two functions. -/
inductive Direction
  | toMdl
  | fromMdl
  deriving DecidableEq

/-- What the loop works on. The segment of the cursor is `currentMdl`, which is null behind the last
MDL. -/
structure Copy where
  mdl : List (List Byte)
  cursor : Cursor
  buffer : List Byte
  bytesCopied : Nat
  deriving DecidableEq

namespace Copy

/-- The assignment of the loop: both bytes are accessed. -/
def move (direction : Direction) (s : Copy) : Option Copy := do
  let inMdl ← s.cursor.readAt s.mdl
  let inBuffer ← s.buffer[s.bytesCopied]?
  match direction with
  | .toMdl => some { s with mdl := s.cursor.writeAt s.mdl inBuffer }
  | .fromMdl => some { s with buffer := s.buffer.set s.bytesCopied inMdl }

/-- Behind the assignment. -/
def next (s : Copy) : Copy := { s with cursor := s.cursor.next, bytesCopied := s.bytesCopied + 1 }

/-- `currentMdl->Next`, from its start. -/
def nextMdl (s : Copy) : Copy := { s with cursor := ⟨s.cursor.segment + 1, 0⟩ }

/-- The loop of `copyBytesToMdl` and `copyBytesFromMdl`, of at most so many iterations. -/
def loop (direction : Direction) (length : Nat) : Nat → Copy → Option Copy
  | 0, _ => none
  | fuel + 1, s => do
    let current ← s.mdl[s.cursor.segment]?
    if s.cursor.offset = current.length then
      if s.nextMdl.cursor.AtEnd s.mdl then some s.nextMdl else loop direction length fuel s.nextMdl
    else if s.bytesCopied = length then some s
    else
      let s ← s.move direction
      loop direction length fuel s.next

end Copy

/-- The two functions, with the bytes that are at `Buffer` and as many of them as `Length` says. -/
def copyBytes (direction : Direction) (mdl : List (List Byte)) (cursor : Cursor)
    (buffer : List Byte) : Option Copy :=
  Copy.loop direction buffer.length (mdl.length + buffer.length + 1) ⟨mdl, cursor, buffer, 0⟩

/-- `copyBytesToMdl` -/
def copyBytesToMdl : List (List Byte) → Cursor → List Byte → Option Copy := copyBytes .toMdl

/-- `copyBytesFromMdl` -/
def copyBytesFromMdl : List (List Byte) → Cursor → List Byte → Option Copy := copyBytes .fromMdl

/-- One call behind another. -/
def Copy.andThen (first second : Copy) : Copy :=
  ⟨second.mdl, second.cursor, first.buffer ++ second.buffer,
    first.bytesCopied + second.bytesCopied⟩

/-- A call for each chunk. -/
def copyChunks (direction : Direction) (mdl : List (List Byte)) (cursor : Cursor) :
    List (List Byte) → Option Copy
  | [] => some ⟨mdl, cursor, [], 0⟩
  | chunk :: chunks => do
    let first ← copyBytes direction mdl cursor chunk
    let second ← copyChunks direction first.mdl first.cursor chunks
    some (first.andThen second)

theorem Copy.andThen_nil (first : Copy) :
    first.andThen ⟨first.mdl, first.cursor, [], 0⟩ = first := by
  rw [andThen, List.append_nil, Nat.add_zero]

/-! ## Flat memory -/

/-- A buffer and flat memory, with a position in it. -/
structure FlatCopy where
  memory : List Byte
  position : Nat
  buffer : List Byte
  bytesCopied : Nat

/-- As many bytes as there are behind the position. -/
def copyFlat (direction : Direction) (memory : List Byte) (position : Nat) (buffer : List Byte) :
    FlatCopy :=
  let n := min buffer.length (memory.length - position)
  match direction with
  | .toMdl =>
    ⟨memory.take position ++ buffer.take n ++ memory.drop (position + n), position + n, buffer, n⟩
  | .fromMdl => ⟨memory, position + n, (memory.drop position).take n ++ buffer.drop n, n⟩

theorem position_copyFlat (direction : Direction) (memory : List Byte) (position : Nat)
    (buffer : List Byte) : (copyFlat direction memory position buffer).position =
      position + min buffer.length (memory.length - position) := by
  cases direction <;> rfl

/-- The chain as flat memory. -/
def Copy.flat (s : Copy) : FlatCopy :=
  ⟨s.mdl.flatten, s.cursor.position s.mdl, s.buffer, s.bytesCopied⟩

/-- Every call finds an MDL: the chunks before the last one do not use up the chain. -/
def HasRoom (mdl : List (List Byte)) (cursor : Cursor) (chunks : List (List Byte)) : Prop :=
  ¬cursor.AtEnd mdl ∧
    (chunks.length ≤ 1 ∨
      chunks.dropLast.flatten.length < mdl.flatten.length - cursor.position mdl)

instance (mdl : List (List Byte)) (cursor : Cursor) (chunks : List (List Byte)) :
    Decidable (HasRoom mdl cursor chunks) := inferInstanceAs (Decidable (_ ∧ _))

/-! ## The loop does what the cursor does -/

namespace Copy

/-- What is left to do, at once. -/
def finish (direction : Direction) (s : Copy) : Copy :=
  match direction with
  | .toMdl =>
    let (cursor, mdl, n) := s.cursor.copyTo s.mdl (s.buffer.drop s.bytesCopied)
    { s with mdl, cursor, bytesCopied := s.bytesCopied + n }
  | .fromMdl =>
    let (cursor, bytes) := s.cursor.copyFrom s.mdl (s.buffer.length - s.bytesCopied)
    { s with
      cursor
      buffer := s.buffer.take s.bytesCopied ++ bytes ++
        s.buffer.drop (s.bytesCopied + bytes.length)
      bytesCopied := s.bytesCopied + bytes.length }

variable (direction : Direction) {s : Copy} {seg : List Byte}

/-- Only where the cursor settles counts. -/
theorem finish_congr {c : Cursor} (h : s.cursor.Within s.mdl) (h' : c.Within s.mdl)
    (hsettle : s.cursor.settle s.mdl = c.settle s.mdl) :
    finish direction s = finish direction { s with cursor := c } := by
  cases direction with
  | toMdl =>
    have hcopy := Cursor.copyTo_settle h (s.buffer.drop s.bytesCopied)
    rw [hsettle, Cursor.copyTo_settle h'] at hcopy
    simp only [finish, hcopy]
  | fromMdl =>
    have hcopy := Cursor.copyFrom_settle h (s.buffer.length - s.bytesCopied)
    rw [hsettle, Cursor.copyFrom_settle h'] at hcopy
    simp only [finish, hcopy]

/-- Nothing is left to do when all is copied, or at the end of the chain. -/
theorem finish_of_done (hs : s.cursor.Settled s.mdl)
    (hdone : s.cursor.AtEnd s.mdl ∨ s.bytesCopied = s.buffer.length) : finish direction s = s := by
  cases direction with
  | toMdl =>
    have hcopy : s.cursor.copyTo s.mdl (s.buffer.drop s.bytesCopied) = (s.cursor, s.mdl, 0) := by
      rcases hdone with hat | hall
      · exact Cursor.copyTo_atEnd hs hat _
      · rw [hall, List.drop_length, Cursor.copyTo, hs.settle_eq]
    simp only [finish, hcopy, Nat.add_zero]
  | fromMdl =>
    have hcopy : s.cursor.copyFrom s.mdl (s.buffer.length - s.bytesCopied) = (s.cursor, []) := by
      rcases hdone with hat | hall
      · exact Cursor.copyFrom_atEnd hs hat _
      · rw [hall, Nat.sub_self, Cursor.copyFrom, hs.settle_eq]
    simp only [finish, hcopy, List.length_nil, Nat.add_zero, List.append_nil,
      List.take_append_drop]

/-- One byte, and then the rest. -/
theorem finish_move (hs : s.cursor.Settled s.mdl) (hseg : s.mdl[s.cursor.segment]? = some seg)
    (hlt : s.bytesCopied < s.buffer.length) :
    ∃ s', s.move direction = some s' ∧ finish direction s'.next = finish direction s ∧
      s'.buffer.length = s.buffer.length ∧ s'.mdl.length = s.mdl.length ∧
      s'.cursor = s.cursor ∧ s'.bytesCopied = s.bytesCopied ∧
      s'.next.cursor.Within s'.mdl := by
  have hread : s.cursor.readAt s.mdl = seg[s.cursor.offset]? := by
    rw [Cursor.readAt, hseg]
    rfl
  obtain ⟨inMdl, hinMdl⟩ : ∃ inMdl, seg[s.cursor.offset]? = some inMdl :=
    ⟨_, List.getElem?_eq_getElem (hs seg hseg)⟩
  have hinBuffer : s.buffer[s.bytesCopied]? = some s.buffer[s.bytesCopied] :=
    List.getElem?_eq_getElem hlt
  rw [hinMdl] at hread
  cases direction with
  | toMdl =>
    refine ⟨{ s with mdl := s.cursor.writeAt s.mdl s.buffer[s.bytesCopied] }, ?_, ?_, rfl, ?_, rfl,
      rfl, Cursor.within_next_writeAt _ hread⟩
    · rw [move, hread, hinBuffer]
      rfl
    · have hdrop := List.drop_eq_getElem_cons hlt
      simp only [finish, next, hdrop, Cursor.copyTo, hs.settle_eq, hread]
      rw [Nat.add_assoc, Nat.add_comm 1]
    · exact List.length_modify ..
  | fromMdl =>
    refine ⟨{ s with buffer := s.buffer.set s.bytesCopied inMdl }, ?_, ?_, List.length_set, rfl,
      rfl, rfl, (Cursor.next_of_readAt hread).1⟩
    · rw [move, hread, hinBuffer]
      rfl
    · have hleft : s.buffer.length - s.bytesCopied =
          s.buffer.length - (s.bytesCopied + 1) + 1 := by omega
      have htake := Cursor.take_succ_set inMdl hlt
      simp only [finish, next, hleft, Cursor.copyFrom, hs.settle_eq, hread, List.length_set, htake,
        List.length_cons, List.append_assoc, List.nil_append, List.cons_append]
      rw [List.drop_set_of_lt (by omega), Nat.add_assoc, Nat.add_comm 1]

/-- **The loop ends, with all done**: an iteration copies a byte or moves on to the next MDL. -/
theorem loop_eq (fuel : Nat) : ∀ (s : Copy), s.cursor.Within s.mdl → ¬s.cursor.AtEnd s.mdl →
    s.bytesCopied ≤ s.buffer.length →
    s.mdl.length - s.cursor.segment + (s.buffer.length - s.bytesCopied) < fuel →
    loop direction s.buffer.length fuel s = some (finish direction s) := by
  induction fuel with
  | zero => intro s _ _ _ hfuel; exact absurd hfuel (Nat.not_lt_zero _)
  | succ fuel ih =>
    intro s hwithin hend hcopied hfuel
    have hsegment : s.cursor.segment < s.mdl.length := Nat.not_le.1 hend
    have hseg := List.getElem?_eq_getElem hsegment
    rw [loop, hseg]
    show (if s.cursor.offset = s.mdl[s.cursor.segment].length then _ else _) = _
    by_cases hused : s.cursor.offset = s.mdl[s.cursor.segment].length
    · have hnext := Cursor.within_of_end hseg
      have hfinish := finish_congr direction hwithin hnext
        (Cursor.settle_of_end hseg hused)
      rw [if_pos hused, hfinish]
      by_cases hat : s.nextMdl.cursor.AtEnd s.mdl
      · rw [if_pos hat]
        exact congrArg some (finish_of_done direction (Cursor.settled_of_atEnd hat) (.inl hat)).symm
      · rw [if_neg hat]
        refine ih s.nextMdl hnext hat hcopied ?_
        show s.mdl.length - (s.cursor.segment + 1) + (s.buffer.length - s.bytesCopied) < fuel
        omega
    · have hsettled := Cursor.settled_of_ne hwithin hseg hused
      rw [if_neg hused]
      by_cases hall : s.bytesCopied = s.buffer.length
      · rw [if_pos hall, finish_of_done direction hsettled (.inr hall)]
      · obtain ⟨s', hmove, hfinish, hbuffer, hmdl, hcursor, hcount, hnext⟩ :=
          finish_move direction hsettled hseg (by omega)
        rw [if_neg hall, hmove, ← hfinish, ← hbuffer]
        refine ih s'.next hnext ?_ ?_ ?_
        · show ¬s'.mdl.length ≤ s'.cursor.segment
          rw [hmdl, hcursor]
          exact hend
        · show s'.bytesCopied + 1 ≤ s'.buffer.length
          omega
        · show s'.mdl.length - s'.cursor.segment + (s'.buffer.length - (s'.bytesCopied + 1)) < fuel
          rw [hmdl, hcursor, hbuffer, hcount]
          omega

/-- **An MDL chain is flat memory**, and the cursor is in its normal form. -/
theorem finish_flat {mdl : List (List Byte)} {c : Cursor} (hc : c.Within mdl)
    (buffer : List Byte) :
    (finish direction ⟨mdl, c, buffer, 0⟩).flat =
        copyFlat direction mdl.flatten (c.position mdl) buffer ∧
      Cursor.SameShape (finish direction ⟨mdl, c, buffer, 0⟩).mdl mdl ∧
      (finish direction ⟨mdl, c, buffer, 0⟩).cursor.Within
        (finish direction ⟨mdl, c, buffer, 0⟩).mdl ∧
      (finish direction ⟨mdl, c, buffer, 0⟩).cursor.Settled
        (finish direction ⟨mdl, c, buffer, 0⟩).mdl := by
  have hle := Cursor.position_le hc
  cases direction with
  | toMdl =>
    have hroom : (buffer.take (mdl.flatten.length - c.position mdl)).length =
        min buffer.length (mdl.flatten.length - c.position mdl) := by
      rw [List.length_take, Nat.min_comm]
    have htake : buffer.take (min buffer.length (mdl.flatten.length - c.position mdl)) =
        buffer.take (mdl.flatten.length - c.position mdl) := by
      rw [List.take_eq_take_iff]
      omega
    have hspec := Cursor.copyTo_spec (buffer.take (mdl.flatten.length - c.position mdl)) hc
      (by omega)
    rw [Cursor.copyTo_take hc, hroom] at hspec
    obtain ⟨hflat, hshape, hcount, hwithin, hpos⟩ := hspec
    have hcursor := hshape.cursor (c.copyTo mdl buffer).1
    refine ⟨?_, hshape, hcursor.1.2 hwithin, Cursor.settled_copyTo buffer hc⟩
    show FlatCopy.mk (c.copyTo mdl buffer).2.1.flatten
      (Cursor.position (c.copyTo mdl buffer).2.1 (c.copyTo mdl buffer).1) buffer
      (0 + (c.copyTo mdl buffer).2.2) = _
    rw [hflat, hcursor.2, hpos, hcount, Nat.zero_add, copyFlat, htake]
  | fromMdl =>
    obtain ⟨hbytes, hwithin, hpos⟩ := Cursor.copyFrom_spec mdl buffer.length hc
    have hlength : (c.copyFrom mdl buffer.length).2.length =
        min buffer.length (mdl.flatten.length - c.position mdl) := by
      rw [hbytes, List.length_take, List.length_drop]
    have htake : (mdl.flatten.drop (c.position mdl)).take buffer.length =
        (mdl.flatten.drop (c.position mdl)).take
          (min buffer.length (mdl.flatten.length - c.position mdl)) := by
      rw [List.take_eq_take_iff, List.length_drop]
      omega
    refine ⟨?_, rfl, hwithin, Cursor.settled_copyFrom mdl buffer.length hc⟩
    show FlatCopy.mk mdl.flatten (Cursor.position mdl (c.copyFrom mdl buffer.length).1)
      ([] ++ (c.copyFrom mdl buffer.length).2 ++
        buffer.drop (0 + (c.copyFrom mdl buffer.length).2.length))
      (0 + (c.copyFrom mdl buffer.length).2.length) = _
    rw [hpos, hlength, hbytes, htake, Nat.zero_add, List.nil_append, copyFlat]

/-- A call that leaves an MDL under the cursor has copied everything. -/
theorem atEnd_finish {mdl : List (List Byte)} {c : Cursor} (hc : c.Within mdl)
    (buffer : List Byte) :
    (finish direction ⟨mdl, c, buffer, 0⟩).cursor.AtEnd
        (finish direction ⟨mdl, c, buffer, 0⟩).mdl ↔
      mdl.flatten.length - c.position mdl ≤ buffer.length := by
  obtain ⟨hflat, hshape, hwithin, hsettled⟩ := finish_flat direction hc buffer
  have hle := Cursor.position_le hc
  have hpos := congrArg FlatCopy.position hflat
  rw [position_copyFlat] at hpos
  rw [hsettled.atEnd_iff hwithin, hshape.length_flatten, show Cursor.position _ _ = _ from hpos]
  omega

/-- **Two calls are one**, when there is an MDL for the second. -/
theorem finish_append {mdl : List (List Byte)} {c : Cursor} (hc : c.Within mdl)
    {chunk : List Byte} (hlt : chunk.length < mdl.flatten.length - c.position mdl)
    (rest : List Byte) :
    (finish direction ⟨mdl, c, chunk, 0⟩).andThen
        (finish direction ⟨(finish direction ⟨mdl, c, chunk, 0⟩).mdl,
          (finish direction ⟨mdl, c, chunk, 0⟩).cursor, rest, 0⟩) =
      finish direction ⟨mdl, c, chunk ++ rest, 0⟩ := by
  cases direction with
  | toMdl =>
    simp only [finish, andThen, List.drop_zero, Cursor.copyTo_append rest chunk hc, Nat.zero_add]
  | fromMdl =>
    have hlength : (c.copyFrom mdl chunk.length).2.length = chunk.length := by
      rw [(Cursor.copyFrom_spec mdl chunk.length hc).1, List.length_take, List.length_drop]
      omega
    simp only [finish, andThen, List.take_zero, List.nil_append, Nat.zero_add, Nat.sub_zero,
      List.length_append, Cursor.copyFrom_add mdl rest.length chunk.length hc, hlength,
      List.drop_length, List.append_nil, List.drop_length_add_append, List.append_assoc]

end Copy

/-- **What a call does**: without an MDL under the cursor it is an error. -/
theorem copyBytes_eq {direction : Direction} {mdl : List (List Byte)} {c : Cursor}
    (hc : c.Within mdl) (buffer : List Byte) :
    copyBytes direction mdl c buffer =
      if c.AtEnd mdl then none else some (Copy.finish direction ⟨mdl, c, buffer, 0⟩) := by
  by_cases hat : c.AtEnd mdl
  · rw [if_pos hat, copyBytes, Copy.loop, List.getElem?_eq_none hat]
    rfl
  · rw [if_neg hat]
    refine Copy.loop_eq direction _ ⟨mdl, c, buffer, 0⟩ hc hat (Nat.zero_le _) ?_
    show mdl.length - c.segment + (buffer.length - 0) < mdl.length + buffer.length + 1
    omega

/-- The MDL copy of `LoopedMdl`, as in `readFifoMdl`. -/
theorem copyBytesToMdl_eq {mdl : List (List Byte)} {c : Cursor} (hc : c.Within mdl)
    (hat : ¬c.AtEnd mdl) (bytes : List Byte) :
    copyBytesToMdl mdl c bytes = some ⟨(c.copyTo mdl bytes).2.1, (c.copyTo mdl bytes).1, bytes,
      (c.copyTo mdl bytes).2.2⟩ := by
  rw [copyBytesToMdl, copyBytes_eq hc, if_neg hat]
  simp only [Copy.finish, List.drop_zero, Nat.zero_add]

/-- The MDL copy of `writeFifoMdl`, whatever the buffer on the stack has before. -/
theorem writeFifoMdl_eq {mdl : List (List Byte)} {c : Cursor} (hc : c.Within mdl)
    (hat : ¬c.AtEnd mdl) (fifoMode : FifoMode) (fifoBuffer : List Byte)
    (hlength : fifoBuffer.length = getFifoCapacity fifoMode) :
    ∃ copied, copyBytesFromMdl mdl c fifoBuffer = some copied ∧
      writeFifoMdl mdl c fifoMode = (copied.cursor,
        writeFifo (copied.buffer.take copied.bytesCopied) copied.bytesCopied fifoMode) := by
  refine ⟨_, (copyBytes_eq hc fifoBuffer).trans (if_neg hat), ?_⟩
  simp only [writeFifoMdl, Copy.finish, hlength, Nat.sub_zero, Nat.zero_add, List.take_zero,
    List.nil_append, List.take_left]

/-! ## Chunks -/

/-- After the first chunk the others need the room that is left. -/
theorem hasRoom_cons (direction : Direction) {mdl : List (List Byte)} {c : Cursor}
    (hc : c.Within mdl) (hat : ¬c.AtEnd mdl) (chunk next : List Byte) (chunks : List (List Byte)) :
    HasRoom mdl c (chunk :: next :: chunks) ↔
      HasRoom (Copy.finish direction ⟨mdl, c, chunk, 0⟩).mdl
        (Copy.finish direction ⟨mdl, c, chunk, 0⟩).cursor (next :: chunks) := by
  obtain ⟨hflat, hshape, -⟩ := Copy.finish_flat direction hc chunk
  have hpos := congrArg FlatCopy.position hflat
  rw [position_copyFlat] at hpos
  have hpos : Cursor.position (Copy.finish direction ⟨mdl, c, chunk, 0⟩).mdl
    (Copy.finish direction ⟨mdl, c, chunk, 0⟩).cursor = _ := hpos
  have hfull := Copy.atEnd_finish direction hc chunk
  have hlast : (chunk :: next :: chunks).dropLast.flatten.length =
      chunk.length + (next :: chunks).dropLast.flatten.length := by
    rw [List.dropLast_cons_of_ne_nil (List.cons_ne_nil _ _), List.flatten_cons, List.length_append]
  rw [HasRoom, HasRoom, hlast, hpos, hshape.length_flatten, hfull]
  simp only [hat, not_false_eq_true, true_and, List.length_cons]
  cases chunks with
  | nil =>
    simp only [List.dropLast_singleton, List.flatten_nil, List.length_nil]
    omega
  | cons chunk' chunks =>
    simp only [List.length_cons]
    omega

/-- **Chunks are copied as one sequence.** -/
theorem copyChunks_eq (direction : Direction) : ∀ (chunks : List (List Byte))
    {mdl : List (List Byte)} {c : Cursor} (chunk : List Byte), c.Within mdl →
    copyChunks direction mdl c (chunk :: chunks) =
      if HasRoom mdl c (chunk :: chunks) then
        copyBytes direction mdl c (chunk :: chunks).flatten
      else none
  | [], mdl, c, chunk, hc => by
    have hone : copyChunks direction mdl c [chunk] = copyBytes direction mdl c chunk := by
      rw [copyChunks]
      cases copyBytes direction mdl c chunk with
      | none => rfl
      | some first => exact congrArg some first.andThen_nil
    rw [hone, List.flatten_singleton]
    by_cases hroom : HasRoom mdl c [chunk]
    · rw [if_pos hroom]
    · have hat : c.AtEnd mdl := by
        by_contra hat
        exact hroom ⟨hat, .inl (Nat.le_refl 1)⟩
      rw [if_neg hroom, copyBytes_eq hc, if_pos hat]
  | next :: chunks, mdl, c, chunk, hc => by
    by_cases hat : c.AtEnd mdl
    · rw [if_neg fun hroom => hroom.1 hat, copyChunks, copyBytes_eq hc, if_pos hat]
      rfl
    · obtain ⟨-, -, hwithin, -⟩ := Copy.finish_flat direction hc chunk
      have hrest := copyChunks_eq direction chunks next hwithin
      have hcons := hasRoom_cons direction hc hat chunk next chunks
      rw [copyChunks, copyBytes_eq hc, if_neg hat]
      show (copyChunks _ _ _ _).bind _ = _
      rw [hrest]
      by_cases hroom : HasRoom mdl c (chunk :: next :: chunks)
      · have hroom' := hcons.1 hroom
        have hlt : chunk.length < mdl.flatten.length - c.position mdl := by
          by_contra hge
          exact hroom'.1 ((Copy.atEnd_finish direction hc chunk).2 (Nat.not_lt.1 hge))
        rw [if_pos hroom, if_pos hroom', copyBytes_eq hwithin, if_neg hroom'.1, copyBytes_eq hc,
          if_neg hat]
        exact congrArg some (Copy.finish_append direction hc hlt _)
      · rw [if_neg hroom, if_neg fun hroom' => hroom (hcons.2 hroom')]
        rfl

/-- **The cursor law**: chunks are copied as one sequence, with the same cursor, exactly when every
call finds an MDL; the effect is that of a copy in the flattened chain, and the cursor is the one
in normal form for the position behind the bytes. -/
theorem mdlCursorLaw (direction : Direction) (mdl : List (List Byte)) (c : Cursor)
    (chunk : List Byte) (chunks : List (List Byte)) (hc : c.Within mdl) :
    copyChunks direction mdl c (chunk :: chunks) =
        (if HasRoom mdl c (chunk :: chunks) then
          copyBytes direction mdl c (chunk :: chunks).flatten
        else none) ∧
      (copyBytes direction mdl c (chunk :: chunks).flatten = none ↔ c.AtEnd mdl) ∧
      ∀ copied, copyBytes direction mdl c (chunk :: chunks).flatten = some copied →
        copied.flat =
            copyFlat direction mdl.flatten (c.position mdl) (chunk :: chunks).flatten ∧
          Cursor.SameShape copied.mdl mdl ∧
          copied.cursor.Within copied.mdl ∧ copied.cursor.Settled copied.mdl ∧
          ∀ c' : Cursor, c'.Within copied.mdl → c'.Settled copied.mdl →
            c'.position copied.mdl = copied.cursor.position copied.mdl → c' = copied.cursor := by
  refine ⟨copyChunks_eq direction chunks chunk hc, ?_, ?_⟩
  · rw [copyBytes_eq hc]
    by_cases hat : c.AtEnd mdl
    · simp [hat]
    · simp [hat]
  · intro copied hcopied
    rw [copyBytes_eq hc] at hcopied
    split at hcopied
    · cases hcopied
    · cases hcopied
      obtain ⟨hflat, hshape, hwithin, hsettled⟩ :=
        Copy.finish_flat direction hc (chunk :: chunks).flatten
      exact ⟨hflat, hshape, hwithin, hsettled, fun c' hwithin' hsettled' hpos =>
        hsettled'.unique hsettled hwithin' hwithin hpos⟩

/-- Three chunks over MDLs of two, no and one bytes: one ends at the boundary. -/
theorem mdlCursorLaw_boundary :
    copyChunks .toMdl [[0, 0], [], [0]] ⟨0, 0⟩ [[1], [2], [3]] =
        some ⟨[[1, 2], [], [3]], ⟨3, 0⟩, [1, 2, 3], 3⟩ ∧
      copyChunks .toMdl [[0, 0], [], [0]] ⟨0, 0⟩ [[1], [2]] =
        some ⟨[[1, 2], [], [0]], ⟨2, 0⟩, [1, 2], 2⟩ := by
  constructor
  · rw [(mdlCursorLaw .toMdl [[0, 0], [], [0]] ⟨0, 0⟩ [1] [[2], [3]]
      (Cursor.within_start _)).1]
    decide
  · rw [(mdlCursorLaw .toMdl [[0, 0], [], [0]] ⟨0, 0⟩ [1] [[2]]
      (Cursor.within_start _)).1]
    decide

/-- When a chunk has used up the chain there is no MDL for the next call, not even for a chunk of no
bytes; a call with the whole sequence is right. -/
theorem copyChunks_usedUp :
    copyChunks .toMdl [[0]] ⟨0, 0⟩ [[1], []] = none ∧
      copyBytes .toMdl [[0]] ⟨0, 0⟩ [1] = some ⟨[[1]], ⟨1, 0⟩, [1], 1⟩ ∧
      ¬∀ (direction : Direction) (mdl : List (List Byte)) (c : Cursor) (chunk : List Byte)
        (chunks : List (List Byte)), c.Within mdl → ¬c.AtEnd mdl →
        copyChunks direction mdl c (chunk :: chunks) =
          copyBytes direction mdl c (chunk :: chunks).flatten := by
  refine ⟨by decide, by decide, fun h => ?_⟩
  exact absurd (h .toMdl [[0]] ⟨0, 0⟩ [1] [[]] (Cursor.within_start _) (by decide)) (by decide)

end RpiDrivers.AuxSpi
