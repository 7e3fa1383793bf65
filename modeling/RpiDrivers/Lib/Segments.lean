import Mathlib.Data.List.Basic

/-!
# Buffers in segments

A buffer may be a chain of segments, and a cursor into it the index of a segment and an offset in
that segment. Before it is used the cursor is settled: it moves over segments that are used up, and
may come to rest behind the last one.

- `position`: where a cursor is in the flat buffer, `chain.flatten`.
- `settle`, `Within`: moving over used-up segments keeps the position.
- `Settled`: the normal form; `Settled.unique`: there is one settled cursor for a position.
- `readAt`, `writeAt`: a settled cursor reads and writes the flat buffer at its position.
- `copyFrom`, `copyTo`: copying any number of elements; `copyFrom_spec`, `copyTo_spec`.
- `copyFrom_add`, `copyTo_append`: **copying twice is copying once**.
-/

namespace RpiDrivers.Lib

universe u

variable {α : Type u}

/-- A segment and an offset in it. The end of a chain is the segment behind the last, at 0. -/
structure Cursor where
  segment : Nat
  offset : Nat
  deriving DecidableEq

namespace Cursor

/-- The same cursor in a chain with one more segment in front. -/
def behind (c : Cursor) : Cursor := ⟨c.segment + 1, c.offset⟩

/-- The next element. -/
def next (c : Cursor) : Cursor := ⟨c.segment, c.offset + 1⟩

/-- The cursor is in the chain, not behind the end of its segment, or at the end of the chain. -/
def Within : List (List α) → Cursor → Prop
  | [], c => c = ⟨0, 0⟩
  | seg :: _, ⟨0, offset⟩ => offset ≤ seg.length
  | _ :: rest, ⟨segment + 1, offset⟩ => Within rest ⟨segment, offset⟩

/-- Where the cursor is in the flat buffer. -/
def position : List (List α) → Cursor → Nat
  | [], c => c.offset
  | _ :: _, ⟨0, offset⟩ => offset
  | seg :: rest, ⟨segment + 1, offset⟩ => seg.length + position rest ⟨segment, offset⟩

/-- Move over segments that are used up. -/
def settle : List (List α) → Cursor → Cursor
  | [], c => c
  | seg :: rest, ⟨0, offset⟩ =>
    if offset = seg.length then (settle rest ⟨0, 0⟩).behind else ⟨0, offset⟩
  | _ :: rest, ⟨segment + 1, offset⟩ => (settle rest ⟨segment, offset⟩).behind

/-- The cursor is behind the last segment. -/
def AtEnd (chain : List (List α)) (c : Cursor) : Prop := chain.length ≤ c.segment

instance (chain : List (List α)) (c : Cursor) : Decidable (AtEnd chain c) :=
  inferInstanceAs (Decidable (_ ≤ _))

/-- The element under the cursor. -/
def readAt (chain : List (List α)) (c : Cursor) : Option α :=
  chain[c.segment]?.bind (·[c.offset]?)

/-- Put an element under the cursor. -/
def writeAt (chain : List (List α)) (c : Cursor) (a : α) : List (List α) :=
  chain.modify c.segment (·.set c.offset a)

theorem within_start : ∀ chain : List (List α), Within chain ⟨0, 0⟩
  | [] => rfl
  | _ :: _ => Nat.zero_le _

theorem position_start : ∀ chain : List (List α), position chain ⟨0, 0⟩ = 0
  | [] => rfl
  | _ :: _ => rfl

/-! ## Settling -/

theorem within_settle : ∀ {chain : List (List α)} {c : Cursor}, Within chain c →
    Within chain (settle chain c)
  | [], _, h => h
  | seg :: rest, ⟨0, offset⟩, h => by
    rw [settle]
    split
    · exact within_settle (within_start rest)
    · exact h
  | _ :: rest, ⟨segment + 1, offset⟩, h =>
    @within_settle rest ⟨segment, offset⟩ h

/-- **Settling keeps the position.** -/
theorem position_settle : ∀ {chain : List (List α)} {c : Cursor}, Within chain c →
    position chain (settle chain c) = position chain c
  | [], _, _ => rfl
  | seg :: rest, ⟨0, offset⟩, _ => by
    rw [settle]
    split
    · next hend =>
      show seg.length + position rest (settle rest ⟨0, 0⟩) = offset
      rw [position_settle (within_start rest), position_start, hend]
      rfl
    · rfl
  | seg :: rest, ⟨segment + 1, offset⟩, h => by
    show seg.length + position rest (settle rest ⟨segment, offset⟩) = _
    rw [@position_settle rest ⟨segment, offset⟩ h]
    rfl

/-- A cursor that has been settled is at the end, or an element is under it. -/
theorem readAt_settle : ∀ {chain : List (List α)} {c : Cursor}, Within chain c →
    (AtEnd chain (settle chain c) ∧ position chain c = chain.flatten.length) ∨
      ¬ AtEnd chain (settle chain c) ∧ position chain c < chain.flatten.length ∧
        readAt chain (settle chain c) = chain.flatten[position chain c]?
  | [], c, h => by
    obtain rfl : c = ⟨0, 0⟩ := h
    exact .inl ⟨Nat.le_refl 0, rfl⟩
  | seg :: rest, ⟨0, offset⟩, h => by
    rw [settle]
    split
    · next hend =>
      subst hend
      rw [List.flatten_cons, List.length_append]
      rcases readAt_settle (within_start rest) with ⟨hat, hpos⟩ | ⟨hat, hpos, hread⟩
      · rw [position_start] at hpos
        refine .inl ⟨Nat.succ_le_succ hat, ?_⟩
        show seg.length = _
        omega
      · rw [position_start] at hpos hread
        refine .inr ⟨fun hc => hat (Nat.le_of_succ_le_succ hc), ?_, ?_⟩
        · show seg.length < _
          omega
        · show readAt rest (settle rest ⟨0, 0⟩) = (seg ++ rest.flatten)[seg.length]?
          rw [hread, List.getElem?_append_right (Nat.le_refl _), Nat.sub_self]
    · next hend =>
      have hlt : offset < seg.length := Nat.lt_of_le_of_ne h hend
      refine .inr ⟨fun hc => absurd hc (Nat.not_succ_le_zero _), ?_, ?_⟩
      · rw [List.flatten_cons, List.length_append]
        exact Nat.lt_of_lt_of_le hlt (Nat.le_add_right _ _)
      · show seg[offset]? = (seg ++ rest.flatten)[offset]?
        rw [List.getElem?_append_left hlt]
  | seg :: rest, ⟨segment + 1, offset⟩, h => by
    rw [List.flatten_cons, List.length_append]
    rcases @readAt_settle rest ⟨segment, offset⟩ h with
      ⟨hat, hpos⟩ | ⟨hat, hpos, hread⟩
    · exact .inl ⟨Nat.succ_le_succ hat, congrArg (seg.length + ·) hpos⟩
    · refine .inr ⟨fun hc => hat (Nat.le_of_succ_le_succ hc), Nat.add_lt_add_left hpos _, ?_⟩
      show readAt rest (settle rest ⟨segment, offset⟩) =
        (seg ++ rest.flatten)[seg.length + position rest ⟨segment, offset⟩]?
      rw [hread, List.getElem?_append_right (Nat.le_add_right _ _), Nat.add_sub_cancel_left]

/-- Behind an element the cursor is one further. -/
theorem next_of_readAt : ∀ {chain : List (List α)} {c : Cursor} {a : α},
    readAt chain c = some a → Within chain c.next ∧ position chain c.next = position chain c + 1
  | [], c, a, h => by simp [readAt] at h
  | seg :: rest, ⟨0, offset⟩, a, h => by
    obtain ⟨hlt, -⟩ := List.getElem?_eq_some_iff.1 (h : seg[offset]? = some a)
    exact ⟨hlt, rfl⟩
  | seg :: rest, ⟨segment + 1, offset⟩, a, h => by
    obtain ⟨hwithin, hpos⟩ := @next_of_readAt rest ⟨segment, offset⟩ a h
    exact ⟨hwithin, congrArg (seg.length + ·) hpos⟩

/-- A cursor at the end has everything behind it. -/
theorem position_of_atEnd : ∀ {chain : List (List α)} {c : Cursor}, Within chain c →
    AtEnd chain c → position chain c = chain.flatten.length
  | [], c, h, _ => by
    obtain rfl : c = ⟨0, 0⟩ := h
    rfl
  | _ :: _, ⟨0, _⟩, _, hat => absurd hat (Nat.not_succ_le_zero _)
  | seg :: rest, ⟨segment + 1, offset⟩, h, hat => by
    rw [List.flatten_cons, List.length_append]
    exact congrArg (seg.length + ·)
      (@position_of_atEnd rest ⟨segment, offset⟩ h (Nat.le_of_succ_le_succ hat))

theorem position_le {chain : List (List α)} {c : Cursor} (h : Within chain c) :
    position chain c ≤ chain.flatten.length := by
  rcases readAt_settle h with ⟨-, hpos⟩ | ⟨-, hlt, -⟩
  · exact Nat.le_of_eq hpos
  · exact Nat.le_of_lt hlt

/-- At the end there is no element under the cursor. -/
theorem readAt_of_atEnd {chain : List (List α)} {c : Cursor} (hat : AtEnd chain c) :
    readAt chain c = none := by
  rw [readAt, List.getElem?_eq_none hat]
  rfl

/-! ## Settled cursors -/

/-- The segment under the cursor is not used up. -/
def Settled (chain : List (List α)) (c : Cursor) : Prop :=
  ∀ seg, chain[c.segment]? = some seg → c.offset < seg.length

theorem settled_of_atEnd {chain : List (List α)} {c : Cursor} (hat : AtEnd chain c) :
    Settled chain c := by
  intro seg h
  rw [List.getElem?_eq_none hat] at h
  cases h

/-- A cursor of the chain that is not at the end of its segment is settled. -/
theorem settled_of_ne : ∀ {chain : List (List α)} {c : Cursor} {seg : List α}, Within chain c →
    chain[c.segment]? = some seg → c.offset ≠ seg.length → Settled chain c
  | [], _, _, _, h, _ => by cases h
  | seg :: rest, ⟨0, offset⟩, seg', hc, h, hne => by
    obtain rfl : seg = seg' := Option.some.inj h
    rintro _ ⟨rfl⟩
    exact Nat.lt_of_le_of_ne hc hne
  | _ :: rest, ⟨segment + 1, offset⟩, seg, hc, h, hne =>
    @settled_of_ne rest ⟨segment, offset⟩ seg hc h hne

theorem settled_settle : ∀ {chain : List (List α)} {c : Cursor}, Within chain c →
    Settled chain (settle chain c)
  | [], _, _ => fun _ h => by cases h
  | seg :: rest, ⟨0, offset⟩, h => by
    rw [settle]
    split
    · exact settled_settle (within_start rest)
    · next hend =>
      rintro _ ⟨rfl⟩
      exact Nat.lt_of_le_of_ne h hend
  | _ :: rest, ⟨segment + 1, offset⟩, h => @settled_settle rest ⟨segment, offset⟩ h

/-- A cursor that is settled stays where it is. -/
theorem Settled.settle_eq : ∀ {chain : List (List α)} {c : Cursor}, Settled chain c →
    settle chain c = c
  | [], _, _ => rfl
  | seg :: rest, ⟨0, offset⟩, h => by
    rw [settle, if_neg (Nat.ne_of_lt (h seg rfl))]
  | _ :: rest, ⟨segment + 1, offset⟩, h => by
    have hrest : Settled rest ⟨segment, offset⟩ := h
    rw [settle, hrest.settle_eq]
    rfl

/-- **There is one settled cursor for a position.** -/
theorem Settled.unique : ∀ {chain : List (List α)} {c c' : Cursor}, Settled chain c →
    Settled chain c' → Within chain c → Within chain c' → position chain c = position chain c' →
    c = c'
  | [], c, c', _, _, h, h', _ => Eq.trans h (Eq.symm h')
  | seg :: rest, ⟨0, offset⟩, ⟨0, offset'⟩, _, _, _, _, hpos => by
    rw [show offset = offset' from hpos]
  | seg :: rest, ⟨0, offset⟩, ⟨segment' + 1, offset'⟩, hs, _, _, _, hpos => by
    have hlt : offset < seg.length := hs seg rfl
    have hpos : offset = seg.length + position rest ⟨segment', offset'⟩ := hpos
    omega
  | seg :: rest, ⟨segment + 1, offset⟩, ⟨0, offset'⟩, _, hs', _, _, hpos => by
    have hlt : offset' < seg.length := hs' seg rfl
    have hpos : seg.length + position rest ⟨segment, offset⟩ = offset' := hpos
    omega
  | seg :: rest, ⟨segment + 1, offset⟩, ⟨segment' + 1, offset'⟩, hs, hs', h, h', hpos => by
    have hrest : Settled rest ⟨segment, offset⟩ := hs
    have hrest' : Settled rest ⟨segment', offset'⟩ := hs'
    have heq := hrest.unique hrest' h h' (Nat.add_left_cancel hpos)
    rw [Cursor.mk.injEq] at heq ⊢
    omega

/-- A settled cursor with nothing behind it is at the end. -/
theorem Settled.atEnd_iff {chain : List (List α)} {c : Cursor} (hs : Settled chain c)
    (h : Within chain c) : AtEnd chain c ↔ position chain c = chain.flatten.length := by
  have hread := readAt_settle h
  rw [hs.settle_eq] at hread
  constructor
  · exact position_of_atEnd h
  · intro hpos
    rcases hread with ⟨hat, -⟩ | ⟨-, hlt, -⟩
    · exact hat
    · omega

/-- Behind a segment the cursor is at the start of the next one. -/
theorem settle_of_end : ∀ {chain : List (List α)} {c : Cursor} {seg : List α},
    chain[c.segment]? = some seg → c.offset = seg.length →
    settle chain c = settle chain ⟨c.segment + 1, 0⟩
  | [], _, _, h, _ => by cases h
  | seg :: rest, ⟨0, offset⟩, seg', h, hend => by
    obtain rfl : seg = seg' := Option.some.inj h
    rw [settle, if_pos hend]
    rfl
  | _ :: rest, ⟨segment + 1, offset⟩, seg, h, hend => by
    have hrest := @settle_of_end rest ⟨segment, offset⟩ seg h hend
    rw [settle, hrest]
    rfl

/-- Where a cursor is behind a segment, so is the start of the next one. -/
theorem within_of_end : ∀ {chain : List (List α)} {c : Cursor} {seg : List α},
    chain[c.segment]? = some seg → Within chain ⟨c.segment + 1, 0⟩
  | [], _, _, h => by cases h
  | _ :: rest, ⟨0, _⟩, _, _ => within_start rest
  | _ :: rest, ⟨segment + 1, offset⟩, seg, h => @within_of_end rest ⟨segment, offset⟩ seg h

/-! ## Writing -/

/-- Chains with segments of the same lengths. -/
def SameShape (chain chain' : List (List α)) : Prop :=
  chain.map List.length = chain'.map List.length

theorem SameShape.length_flatten {chain chain' : List (List α)} (h : SameShape chain chain') :
    chain.flatten.length = chain'.flatten.length := by
  rw [List.length_flatten, List.length_flatten, h]

/-- Cursors do not look at the elements. -/
theorem SameShape.cursor : ∀ {chain chain' : List (List α)}, SameShape chain chain' →
    ∀ c : Cursor, (Within chain c ↔ Within chain' c) ∧ position chain c = position chain' c
  | [], [], _, _ => ⟨Iff.rfl, rfl⟩
  | [], _ :: _, h, _ => by cases h
  | _ :: _, [], h, _ => by cases h
  | seg :: rest, seg' :: rest', h, c => by
    obtain ⟨hseg, hrest⟩ := List.cons.inj h
    obtain ⟨segment, offset⟩ := c
    cases segment with
    | zero =>
      refine ⟨?_, rfl⟩
      show offset ≤ seg.length ↔ offset ≤ seg'.length
      rw [hseg]
    | succ segment =>
      have hshape : SameShape rest rest' := hrest
      obtain ⟨hwithin, hpos⟩ := hshape.cursor ⟨segment, offset⟩
      refine ⟨hwithin, ?_⟩
      show seg.length + _ = seg'.length + _
      rw [hseg, hpos]

theorem sameShape_writeAt : ∀ (chain : List (List α)) (c : Cursor) (a : α),
    SameShape (writeAt chain c a) chain
  | [], _, _ => by simp [SameShape, writeAt]
  | seg :: rest, ⟨0, offset⟩, a => by simp [SameShape, writeAt]
  | seg :: rest, ⟨segment + 1, offset⟩, a => by
    have ih := sameShape_writeAt rest ⟨segment, offset⟩ a
    simp only [SameShape, writeAt] at ih
    simp [SameShape, writeAt, ih]

/-- **A write at a cursor is a write at its position.** -/
theorem flatten_writeAt : ∀ {chain : List (List α)} {c : Cursor} (a : α),
    (readAt chain c).isSome = true →
    (writeAt chain c a).flatten = chain.flatten.set (position chain c) a
  | [], _, _, h => by simp [readAt] at h
  | seg :: rest, ⟨0, offset⟩, a, h => by
    have hlt : offset < seg.length := by simpa [readAt] using h
    show (seg.set offset a :: rest).flatten = _
    rw [List.flatten_cons, List.flatten_cons, position, List.set_append_left _ _ hlt]
  | seg :: rest, ⟨segment + 1, offset⟩, a, h => by
    have ih := @flatten_writeAt rest ⟨segment, offset⟩ a h
    show (seg :: writeAt rest ⟨segment, offset⟩ a).flatten = _
    rw [List.flatten_cons, List.flatten_cons, ih, position,
      List.set_append_right _ _ (Nat.le_add_right _ _), Nat.add_sub_cancel_left]

/-! ## Copying -/

/-- Take `n` elements, or what is left: the cursor behind them, and the elements. -/
def copyFrom (chain : List (List α)) : Cursor → Nat → Cursor × List α
  | c, 0 => (settle chain c, [])
  | c, n + 1 =>
    match readAt chain (settle chain c) with
    | none => (settle chain c, [])
    | some a =>
      let (c', as) := copyFrom chain (settle chain c).next n
      (c', a :: as)

/-- Put elements down, as many as there is room for: the cursor behind them, the chain, and how
many they were. -/
def copyTo : List (List α) → Cursor → List α → Cursor × List (List α) × Nat
  | chain, c, [] => (settle chain c, chain, 0)
  | chain, c, a :: as =>
    match readAt chain (settle chain c) with
    | none => (settle chain c, chain, 0)
    | some _ =>
      let (c', chain', n) := copyTo (writeAt chain (settle chain c) a) (settle chain c).next as
      (c', chain', n + 1)

/-- **Copying from a chain** takes the next elements of the flat buffer. -/
theorem copyFrom_spec (chain : List (List α)) :
    ∀ (n : Nat) {c : Cursor}, Within chain c →
      (copyFrom chain c n).2 = (chain.flatten.drop (position chain c)).take n ∧
        Within chain (copyFrom chain c n).1 ∧
        position chain (copyFrom chain c n).1 =
          position chain c + (copyFrom chain c n).2.length
  | 0, c, h => ⟨rfl, within_settle h, position_settle h⟩
  | n + 1, c, h => by
    rw [copyFrom]
    rcases readAt_settle h with ⟨hat, hpos⟩ | ⟨hat, hpos, hread⟩
    · rw [readAt_of_atEnd hat]
      refine ⟨?_, within_settle h, position_settle h⟩
      rw [hpos, List.drop_length, List.take_nil]
    · obtain ⟨a, ha⟩ : ∃ a, chain.flatten[position chain c]? = some a :=
        ⟨_, List.getElem?_eq_getElem hpos⟩
      obtain ⟨hwithin, hnext⟩ := next_of_readAt (hread.trans ha)
      rw [position_settle h] at hnext
      obtain ⟨hcopy, hwithin', hpos'⟩ := copyFrom_spec chain n hwithin
      obtain ⟨_, rfl⟩ := List.getElem?_eq_some_iff.1 ha
      rw [hread, ha]
      refine ⟨?_, hwithin', ?_⟩
      · show _ :: (copyFrom chain (settle chain c).next n).2 = _
        rw [hcopy, hnext, List.drop_eq_getElem_cons hpos, List.take_succ_cons]
      · show position chain (copyFrom chain (settle chain c).next n).1 =
          position chain c + ((copyFrom chain (settle chain c).next n).2.length + 1)
        rw [hpos', hnext]
        omega

/-- Copying settles the cursor first. -/
theorem copyFrom_settle {chain : List (List α)} {c : Cursor} (h : Within chain c) (n : Nat) :
    copyFrom chain (settle chain c) n = copyFrom chain c n := by
  have hsettle := (settled_settle h).settle_eq
  cases n with
  | zero => rw [copyFrom, copyFrom, hsettle]
  | succ n => rw [copyFrom, copyFrom, hsettle]

theorem settled_copyFrom (chain : List (List α)) : ∀ (n : Nat) {c : Cursor}, Within chain c →
    Settled chain (copyFrom chain c n).1
  | 0, _, h => settled_settle h
  | n + 1, c, h => by
    rw [copyFrom]
    split
    · exact settled_settle h
    · next hread => exact settled_copyFrom chain n (next_of_readAt hread).1

/-- Behind the last element the cursor comes to rest at the end. -/
theorem atEnd_copyFrom (chain : List (List α)) (n : Nat) {c : Cursor} (h : Within chain c)
    (hpos : position chain (copyFrom chain c n).1 = chain.flatten.length) :
    AtEnd chain (copyFrom chain c n).1 :=
  ((settled_copyFrom chain n h).atEnd_iff (copyFrom_spec chain n h).2.1).2 hpos

/-- At the end there is nothing to take. -/
theorem copyFrom_atEnd {chain : List (List α)} {c : Cursor} (hs : Settled chain c)
    (hat : AtEnd chain c) (n : Nat) : copyFrom chain c n = (c, []) := by
  cases n with
  | zero => rw [copyFrom, hs.settle_eq]
  | succ n => rw [copyFrom, hs.settle_eq, readAt_of_atEnd hat]

/-- **Copying from a chain twice** is copying once. -/
theorem copyFrom_add (chain : List (List α)) (n : Nat) : ∀ (m : Nat) {c : Cursor}, Within chain c →
    copyFrom chain c (m + n) =
      ((copyFrom chain (copyFrom chain c m).1 n).1,
        (copyFrom chain c m).2 ++ (copyFrom chain (copyFrom chain c m).1 n).2)
  | 0, c, h => by
    rw [Nat.zero_add, copyFrom, copyFrom_settle h, List.nil_append]
  | m + 1, c, h => by
    rw [Nat.add_right_comm, copyFrom, copyFrom]
    split
    · next hread =>
      -- nothing is left for the second time either
      cases n with
      | zero => rw [copyFrom, (settled_settle h).settle_eq, List.append_nil]
      | succ n => rw [copyFrom, (settled_settle h).settle_eq, hread, List.append_nil]
    · next a hread =>
      rw [copyFrom_add chain n m (next_of_readAt hread).1]
      rfl

theorem take_succ_set (a : α) {l : List α} {i : Nat} (h : i < l.length) :
    (l.set i a).take (i + 1) = l.take i ++ [a] := by
  have hi : (l.take i).length = i := List.length_take_of_le (Nat.le_of_lt h)
  rw [List.take_set, List.take_succ_eq_append_getElem h, List.set_append_right _ _ (by omega), hi,
    Nat.sub_self]
  rfl

/-- **Copying to a chain** puts the elements down at the position, when they fit. -/
theorem copyTo_spec : ∀ (as : List α) {chain : List (List α)} {c : Cursor}, Within chain c →
    position chain c + as.length ≤ chain.flatten.length →
      (copyTo chain c as).2.1.flatten = chain.flatten.take (position chain c) ++ as ++
          chain.flatten.drop (position chain c + as.length) ∧
        SameShape (copyTo chain c as).2.1 chain ∧
        (copyTo chain c as).2.2 = as.length ∧
        Within chain (copyTo chain c as).1 ∧
        position chain (copyTo chain c as).1 = position chain c + as.length
  | [], chain, c, h, _ => by
    refine ⟨?_, rfl, rfl, within_settle h, position_settle h⟩
    rw [List.append_nil, List.length_nil, Nat.add_zero, List.take_append_drop]
    rfl
  | a :: as, chain, c, h, hroom => by
    rw [List.length_cons] at hroom
    rcases readAt_settle h with ⟨-, hpos⟩ | ⟨-, hpos, hread⟩
    · omega
    · obtain ⟨b, hb⟩ : ∃ b, chain.flatten[position chain c]? = some b :=
        ⟨_, List.getElem?_eq_getElem hpos⟩
      have hsome := hread.trans hb
      obtain ⟨hwithin, hnext⟩ := next_of_readAt hsome
      rw [position_settle h] at hnext
      have hflat := flatten_writeAt a (Option.isSome_of_eq_some hsome)
      rw [position_settle h] at hflat
      have hshape := sameShape_writeAt chain (settle chain c) a
      obtain ⟨hw, hp⟩ := hshape.cursor (settle chain c).next
      have hlength := hshape.length_flatten
      obtain ⟨hcopy, hshape', hcount, hwithin', hpos'⟩ :=
        copyTo_spec as (hw.2 hwithin) (by rw [hp, hnext, hlength]; omega)
      obtain ⟨hw', hp'⟩ := hshape.cursor
        (copyTo (writeAt chain (settle chain c) a) (settle chain c).next as).1
      rw [copyTo, hsome]
      refine ⟨?_, hshape'.trans hshape, congrArg (· + 1) hcount, hw'.1 hwithin', ?_⟩
      · show (copyTo (writeAt chain (settle chain c) a) (settle chain c).next as).2.1.flatten = _
        rw [hcopy, hp, hnext, hflat, take_succ_set a hpos, List.drop_set_of_lt (by omega),
          List.append_assoc _ [a], List.singleton_append, List.length_cons, Nat.add_right_comm,
          Nat.add_assoc]
      · show position chain
          (copyTo (writeAt chain (settle chain c) a) (settle chain c).next as).1 = _
        rw [← hp', hpos', hp, hnext, List.length_cons]
        omega

theorem copyTo_settle {chain : List (List α)} {c : Cursor} (h : Within chain c) (as : List α) :
    copyTo chain (settle chain c) as = copyTo chain c as := by
  have hsettle := (settled_settle h).settle_eq
  cases as with
  | nil => rw [copyTo, copyTo, hsettle]
  | cons a as => rw [copyTo, copyTo, hsettle]

/-- Behind an element that is written the cursor is in the chain as well. -/
theorem within_next_writeAt {chain : List (List α)} {c : Cursor} {b : α} (a : α)
    (hread : readAt chain c = some b) : Within (writeAt chain c a) c.next :=
  ((sameShape_writeAt chain c a).cursor c.next).1.2 (next_of_readAt hread).1

theorem settled_copyTo : ∀ (as : List α) {chain : List (List α)} {c : Cursor}, Within chain c →
    Settled (copyTo chain c as).2.1 (copyTo chain c as).1
  | [], _, _, h => settled_settle h
  | a :: as, chain, c, h => by
    rw [copyTo]
    split
    · exact settled_settle h
    · next hread => exact settled_copyTo as (within_next_writeAt a hread)

/-- **Copying to a chain twice** is copying once. -/
theorem copyTo_append (bs : List α) : ∀ (as : List α) {chain : List (List α)} {c : Cursor},
    Within chain c →
    copyTo chain c (as ++ bs) =
      ((copyTo (copyTo chain c as).2.1 (copyTo chain c as).1 bs).1,
        (copyTo (copyTo chain c as).2.1 (copyTo chain c as).1 bs).2.1,
        (copyTo chain c as).2.2 + (copyTo (copyTo chain c as).2.1 (copyTo chain c as).1 bs).2.2)
  | [], chain, c, h => by
    rw [List.nil_append, copyTo, copyTo_settle h, Nat.zero_add]
  | a :: as, chain, c, h => by
    rw [List.cons_append, copyTo, copyTo]
    split
    · next hread =>
      -- there is no room the second time either
      cases bs with
      | nil =>
        rw [copyTo, (settled_settle h).settle_eq]
        rfl
      | cons b bs =>
        rw [copyTo, (settled_settle h).settle_eq, hread]
        rfl
    · next hread =>
      rw [copyTo_append bs as (within_next_writeAt a hread)]
      simp only [Nat.add_right_comm]

/-- At the end there is no room. -/
theorem copyTo_atEnd {chain : List (List α)} {c : Cursor} (hs : Settled chain c)
    (hat : AtEnd chain c) (as : List α) : copyTo chain c as = (c, chain, 0) := by
  cases as with
  | nil => rw [copyTo, hs.settle_eq]
  | cons a as =>
    rw [copyTo, hs.settle_eq, readAt_of_atEnd hat]

/-- What there is no room for is not copied. -/
theorem copyTo_take {chain : List (List α)} {c : Cursor} (h : Within chain c) (as : List α) :
    copyTo chain c (as.take (chain.flatten.length - position chain c)) = copyTo chain c as := by
  rcases Nat.le_total as.length (chain.flatten.length - position chain c) with hle | hge
  · rw [List.take_of_length_le hle]
  · have hlength := List.length_take_of_le hge
    have hroom := position_le h
    obtain ⟨-, hshape, -, hwithin, hpos⟩ := copyTo_spec
      (as.take (chain.flatten.length - position chain c)) h (by omega)
    have hsettled := settled_copyTo (as.take (chain.flatten.length - position chain c)) h
    have hcursor := hshape.cursor
      (copyTo chain c (as.take (chain.flatten.length - position chain c))).1
    have hat := (hsettled.atEnd_iff (hcursor.1.2 hwithin)).2 (by
      rw [hcursor.2, hpos, hshape.length_flatten]
      omega)
    have happend := copyTo_append (as.drop (chain.flatten.length - position chain c))
      (as.take (chain.flatten.length - position chain c)) h
    rw [List.take_append_drop, copyTo_atEnd hsettled hat] at happend
    exact happend.symm

end Cursor

end RpiDrivers.Lib
