import RpiDrivers.Vchiq.TxFlow

/-!
# What a queued message writes (`slots.c`)

`VchiqQueueMessageAsync` copies a buffer behind its header, `VchiqQueueMultiElementAsync` a list of
elements. Space is acquired for the sum of the sizes as a `ULONG`, and nothing compares the sum with
a slot. The pointer that the second routine advances is one to headers.

- `sameMessage_iff`: the two write the same message **exactly when at most one element is not
  empty**.
- `confined_iff`: what is written stays in the space that has been acquired **exactly when** the
  sizes fit, or there is no slot.
- `two_elements`, `buffer_too_large`: where they do not.
-/

namespace RpiDrivers.Vchiq

open RpiDrivers.Lib

/-! ## The two routines -/

/-- What the two routines have in common. -/
def queueAsync (sh : SharedState) (tx : TxState) (msgId : Nat) (payload : TxPayload)
    (stopped : Bool) : SharedState × TxState × Except AcquireError Unit :=
  let requestSize := (vchiqHeaderSize + payload.bytes.length) % ulongSize
  match vchiqAcquireTxSpace sh tx requestSize stopped with
  | (sh, tx, .error e) => (sh, tx, .error e)
  | (sh, tx, .ok header) =>
    ({ sh with
      memory := copyPayload
        (writeHeader sh.memory header msgId (payload.bytes.length % ulongSize))
        (header + vchiqHeaderSize) payload
      txPos := tx.currentTxPos }, tx, .ok ())

/-- `VchiqQueueMessageAsync`, for a buffer of any size -/
def vchiqQueueBufferAsync (sh : SharedState) (tx : TxState) (msgId : Nat) (buffer : List UInt8)
    (stopped : Bool) : SharedState × TxState × Except AcquireError Unit :=
  queueAsync sh tx msgId (.buffer buffer) stopped

/-- `VchiqQueueMultiElementAsync` -/
def vchiqQueueMultiElementAsync (sh : SharedState) (tx : TxState) (msgId : Nat)
    (elements : List (List UInt8)) (stopped : Bool) :
    SharedState × TxState × Except AcquireError Unit :=
  queueAsync sh tx msgId (.elements elements) stopped

/-- A message is a buffer that fits into a slot. -/
theorem vchiqQueueMessageAsync_eq (sh : SharedState) (tx : TxState) (m : Message)
    (stopped : Bool) :
    vchiqQueueMessageAsync sh tx m stopped =
      vchiqQueueBufferAsync sh tx m.msgId m.payload stopped := by
  have hsize : m.payload.length ≤ 4088 := m.size_le
  have hrequest : (vchiqHeaderSize + m.payload.length) % ulongSize =
      vchiqHeaderSize + m.payload.length :=
    Nat.mod_eq_of_lt (show 8 + m.payload.length < 4294967296 by omega)
  have hlength : m.payload.length % ulongSize = m.payload.length :=
    Nat.mod_eq_of_lt (show m.payload.length < 4294967296 by omega)
  unfold vchiqQueueBufferAsync queueAsync vchiqQueueMessageAsync
  dsimp only [TxPayload.bytes, copyPayload]
  rewrite [hrequest, hlength]
  rfl

/-! ## What is written -/

/-- One piece of memory is inside another one. -/
def Extent.Inside (w space : Extent) : Prop :=
  space.address ≤ w.address ∧ w.address + w.length ≤ space.address + space.length

instance (w space : Extent) : Decidable (w.Inside space) := inferInstanceAs (Decidable (_ ∧ _))

/-- The sizes of a payload. -/
def TxPayload.sizes : TxPayload → TxSizes
  | .buffer bytes => .buffer bytes.length
  | .elements data => .elements (data.map List.length)

/-- Nothing is written in front of the pointer. -/
theorem copyElements_before : ∀ (elements : List (List UInt8)) (m : ByteMemory) {ptr x : Nat},
    x < ptr → copyElements m ptr elements x = m x
  | [], _, _, _, _ => rfl
  | e :: rest, m, ptr, x, hx => by
    rw [copyElements]
    split_ifs
    · exact copyElements_before rest m hx
    · rw [copyElements_before rest _ (Nat.lt_add_right _ hx)]
      exact store_outside m ptr e (.inl hx)

/-! ## The sizes -/

/-- Empty elements are not copied. -/
theorem elementWrites_filter : ∀ (sizes : List Nat) (ptr : Nat),
    elementWrites ptr sizes = elementWrites ptr (sizes.filter (· ≠ 0))
  | [], _ => rfl
  | size :: sizes, ptr => by
    by_cases h : size = 0
    · rw [elementWrites, if_pos h, List.filter_cons_of_neg (by simpa using h)]
      exact elementWrites_filter sizes ptr
    · rw [List.filter_cons_of_pos (by simpa using h), elementWrites, elementWrites, if_neg h,
        if_neg h, elementWrites_filter sizes]

theorem sum_filter : ∀ sizes : List Nat, (sizes.filter (· ≠ 0)).sum = sizes.sum
  | [] => rfl
  | size :: sizes => by
    by_cases h : size = 0
    · rw [List.filter_cons_of_neg (by simpa using h), List.sum_cons, h, Nat.zero_add]
      exact sum_filter sizes
    · rw [List.filter_cons_of_pos (by simpa using h), List.sum_cons, List.sum_cons, sum_filter]

/-- The copies reach at least as far as the sum of the sizes. -/
theorem sum_le_of_elementWrites : ∀ {sizes : List Nat} {ptr stop : Nat}, sizes ≠ [] →
    (∀ size ∈ sizes, size ≠ 0) →
      (∀ w ∈ elementWrites ptr sizes, w.address + w.length ≤ stop) → ptr + sizes.sum ≤ stop
  | [], _, _, hne, _, _ => absurd rfl hne
  | size :: sizes, ptr, stop, _, hpos, h => by
    rw [elementWrites, if_neg (hpos size List.mem_cons_self)] at h
    have hfirst : ptr + size ≤ stop := h ⟨ptr, size⟩ List.mem_cons_self
    rw [List.sum_cons]
    by_cases hlast : sizes = []
    · rw [hlast, List.sum_nil]
      omega
    · have hrest : ptr + vchiqHeaderSize * size + sizes.sum ≤ stop :=
        sum_le_of_elementWrites hlast (fun s hs => hpos s (List.mem_cons_of_mem _ hs))
          fun w hw => h w (List.mem_cons_of_mem _ hw)
      simp only [vchiqHeaderSize] at hrest
      omega

/-- The sizes of elements whose copies stay in the space for their sum: one, or a single byte in
front of a multiple of the alignment. -/
def ElementsFit (sizes : List Nat) : Prop :=
  (sizes.filter (· ≠ 0)).length ≤ 1 ∨ ∃ k, sizes.filter (· ≠ 0) = [1, slotMsgSizeAlign * k]

/-- The condition: the message fits into a slot, and its elements into its space. -/
def SizesFit : TxSizes → Prop
  | .buffer size => size ≤ vchiqMaxMsgSize
  | .elements sizes => sizes.sum ≤ vchiqMaxMsgSize ∧ ElementsFit sizes

/-- **The copies stay in the space** exactly when the elements fit. -/
theorem elementsFit_iff {sizes : List Nat} {ptr : Nat} :
    ElementsFit sizes ↔ ∀ w ∈ elementWrites ptr sizes,
      w.address + w.length ≤ ptr + (sizes.sum + 7) / 8 * 8 := by
  have hpos : ∀ size ∈ sizes.filter (· ≠ 0), size ≠ 0 := fun size hs => by
    simpa using (List.mem_filter.1 hs).2
  rw [ElementsFit, elementWrites_filter, ← sum_filter]
  generalize sizes.filter (· ≠ 0) = pieces at hpos
  constructor
  · rintro (hone | ⟨k, rfl⟩) w hw
    · rcases pieces with _ | ⟨a, _ | ⟨b, rest⟩⟩
      · cases hw
      · rw [elementWrites, if_neg (hpos a List.mem_cons_self)] at hw
        obtain rfl := List.mem_singleton.1 hw
        simp only [List.sum_singleton]
        omega
      · simp at hone
    · rw [elementWrites, if_neg (by decide), elementWrites,
        if_neg (hpos _ (List.mem_cons_of_mem _ List.mem_cons_self))] at hw
      simp only [List.sum_cons, List.sum_nil, slotMsgSizeAlign]
      rcases List.mem_cons.1 hw with rfl | hw
      · simp only
        omega
      · obtain rfl := List.mem_singleton.1 hw
        simp only [vchiqHeaderSize, slotMsgSizeAlign]
        omega
  · intro h
    rcases pieces with _ | ⟨a, _ | ⟨b, rest⟩⟩
    · exact .inl (Nat.zero_le _)
    · exact .inl (le_refl _)
    · have ha := hpos a List.mem_cons_self
      rw [elementWrites, if_neg ha] at h
      -- the second element is copied 8 times as far behind as it belongs
      have hrest := sum_le_of_elementWrites (List.cons_ne_nil b rest)
        (fun s hs => hpos s (List.mem_cons_of_mem _ hs))
        fun w hw => h w (List.mem_cons_of_mem _ hw)
      simp only [List.sum_cons, vchiqHeaderSize] at hrest
      have hone : a = 1 := by omega
      subst hone
      rcases rest with _ | ⟨c, rest⟩
      · rw [List.sum_nil] at hrest
        exact .inr ⟨b / 8, by rw [Nat.mul_div_cancel' (show 8 ∣ b by omega)]⟩
      · have hb := hpos b (List.mem_cons_of_mem _ List.mem_cons_self)
        rw [elementWrites, if_neg hb] at h
        have hlast := sum_le_of_elementWrites (List.cons_ne_nil c rest)
          (fun s hs => hpos s (List.mem_cons_of_mem _ (List.mem_cons_of_mem _ hs)))
          fun w hw => h w (List.mem_cons_of_mem _ (List.mem_cons_of_mem _ hw))
        simp only [List.sum_cons, vchiqHeaderSize] at hlast
        omega

/-! ## The same message -/

/-- The copy of some elements is the copy of what they hold: the header with the size of all of
them, the elements back to back, no other byte in memory, and no byte outside the space. -/
structure SameMessage (elements : List (List UInt8)) : Prop where
  same : ∀ (sh : SharedState) (tx : TxState) (msgId : Nat) (stopped : Bool),
    vchiqQueueMultiElementAsync sh tx msgId elements stopped =
      vchiqQueueBufferAsync sh tx msgId elements.flatten stopped
  written : ∀ (m : ByteMemory) (header msgId : Nat),
    load (copyElements (writeHeader m header msgId elements.flatten.length)
        (header + vchiqHeaderSize) elements) header (vchiqHeaderSize + elements.flatten.length) =
      encode32 msgId ++ encode32 elements.flatten.length ++ elements.flatten
  confined : ∀ header, ∀ w ∈ messageWrites header (TxPayload.elements elements).sizes,
    w.Inside ⟨header, (TxPayload.elements elements).sizes.actualBufferSize⟩

theorem length_ne_of_mem_filter {elements : List (List UInt8)} {e : List UInt8}
    (h : e ∈ elements.filter (·.length ≠ 0)) : e.length ≠ 0 :=
  of_decide_eq_true (List.mem_filter.1 h).2

theorem copyElements_filter : ∀ (elements : List (List UInt8)) (m : ByteMemory) (ptr : Nat),
    copyElements m ptr elements = copyElements m ptr (elements.filter (·.length ≠ 0))
  | [], _, _ => rfl
  | e :: rest, m, ptr => by
    by_cases h : e.length = 0
    · rw [copyElements, if_pos h, List.filter_cons_of_neg (by simpa using h)]
      exact copyElements_filter rest m ptr
    · rw [List.filter_cons_of_pos (by simpa using h), copyElements, copyElements, if_neg h,
        if_neg h, copyElements_filter rest]

theorem flatten_filter : ∀ elements : List (List UInt8),
    (elements.filter (·.length ≠ 0)).flatten = elements.flatten
  | [] => rfl
  | e :: rest => by
    by_cases h : e.length = 0
    · rw [List.filter_cons_of_neg (by simpa using h), List.flatten_cons,
        List.eq_nil_of_length_eq_zero h, List.nil_append]
      exact flatten_filter rest
    · rw [List.filter_cons_of_pos (by simpa using h), List.flatten_cons, List.flatten_cons,
        flatten_filter rest]

/-- What is read behind the header that has been written. -/
theorem load_message (m : ByteMemory) (header msgId : Nat) (bytes : List UInt8) :
    load (store (writeHeader m header msgId bytes.length) (header + vchiqHeaderSize) bytes) header
        (vchiqHeaderSize + bytes.length) =
      encode32 msgId ++ encode32 bytes.length ++ bytes := by
  have hstore : store (writeHeader m header msgId bytes.length) (header + vchiqHeaderSize) bytes =
      store m header (encode32 msgId ++ encode32 bytes.length ++ bytes) := by
    rw [writeHeader]
    exact (congrArg (store · _ _) (store_append m header (encode32 _) (encode32 _))).trans
      (store_append m header (encode32 _ ++ encode32 _) _)
  have hlength : (encode32 msgId ++ encode32 bytes.length ++ bytes).length =
      vchiqHeaderSize + bytes.length := by
    rw [List.length_append, List.length_append, length_encode32, length_encode32]
  rw [hstore, ← hlength, load_store_same]

/-- **Two elements that are not empty** are not back to back: the byte behind the first one is left
as it was. -/
theorem copyElements_gap {a b : List UInt8} {elements rest : List (List UInt8)}
    (h : elements.filter (·.length ≠ 0) = a :: b :: rest) (m : ByteMemory) (ptr : Nat) :
    copyElements m ptr elements (ptr + a.length) = m (ptr + a.length) := by
  have ha : a.length ≠ 0 := length_ne_of_mem_filter (h ▸ List.mem_cons_self)
  rw [copyElements_filter, h, copyElements, if_neg ha,
    copyElements_before _ _ (by simp only [vchiqHeaderSize]; omega)]
  exact store_outside m ptr a (.inr (le_refl _))

/-- **What lies behind the header tells** whether there are two such elements. -/
theorem simple_of_written {elements : List (List UInt8)}
    (h : ∀ m header msgId,
      load (copyElements (writeHeader m header msgId elements.flatten.length)
          (header + vchiqHeaderSize) elements) header (vchiqHeaderSize + elements.flatten.length) =
        encode32 msgId ++ encode32 elements.flatten.length ++ elements.flatten) :
    (TxPayload.elements elements).Simple := by
  by_contra hmore
  obtain ⟨a, b, rest, hpieces⟩ : ∃ a b rest,
      elements.filter (·.length ≠ 0) = a :: b :: rest := by
    rw [TxPayload.Simple, not_le] at hmore
    generalize elements.filter (·.length ≠ 0) = pieces at hmore
    match pieces, hmore with
    | a :: b :: rest, _ => exact ⟨a, b, rest, rfl⟩
  have hb : b.length ≠ 0 :=
    length_ne_of_mem_filter (hpieces ▸ List.mem_cons_of_mem _ List.mem_cons_self)
  obtain ⟨x, b, rfl⟩ := List.exists_cons_of_length_pos (Nat.pos_of_ne_zero hb)
  have hflat : elements.flatten = a ++ x :: (b ++ rest.flatten) := by
    rw [← flatten_filter, hpieces]
    rfl
  have hlt : 8 + a.length < 8 + elements.flatten.length := by
    rw [hflat, List.length_append, List.length_cons]
    omega
  -- in a memory where every byte differs from the first one of the second element
  have hbyte := congrArg (·[8 + a.length]?) (h (fun _ => x + 1) 0 0)
  have hread : (load (copyElements (writeHeader (fun _ => x + 1) 0 0 elements.flatten.length)
      (0 + vchiqHeaderSize) elements) 0 (vchiqHeaderSize + elements.flatten.length))[8 + a.length]?
        = some (x + 1) := by
    rw [List.getElem?_eq_getElem (by rw [length_load]; exact hlt), getElem_load, Nat.zero_add,
      Nat.zero_add, copyElements_gap hpieces]
    refine congrArg some ?_
    have hbehind : 0 + 4 + (encode32 elements.flatten.length).length ≤ 8 + a.length :=
      Nat.le_add_right 8 _
    have hbehind' : 0 + (encode32 0).length ≤ 8 + a.length :=
      Nat.le_trans (by decide : 4 ≤ 8) (Nat.le_add_right 8 _)
    rw [writeHeader, store_outside _ _ _ (.inr hbehind), store_outside _ _ _ (.inr hbehind')]
  have hsent : (encode32 0 ++ encode32 elements.flatten.length ++ elements.flatten)[8 + a.length]?
      = some x := by
    rw [List.getElem?_append_right (by
        rw [List.length_append, length_encode32, length_encode32]
        omega), List.length_append, length_encode32, length_encode32, hflat,
      List.getElem?_append_right (by omega)]
    simp
  have heq : x + 1 = x := Option.some.inj (hread.symm.trans (hbyte.trans hsent))
  simp at heq

/-! ## The space of a message -/

/-- The space for a size that fits. -/
theorem TxSizes.actualBufferSize_of_le {sizes : TxSizes} (h : sizes.size ≤ vchiqMaxMsgSize) :
    sizes.actualBufferSize = vchiqHeaderSize + (sizes.size + 7) / 8 * 8 := by
  have hsize : sizes.size ≤ 4088 := h
  have hmod : (8 + sizes.size) % 4294967296 = 8 + sizes.size := Nat.mod_eq_of_lt (by omega)
  rw [TxSizes.actualBufferSize]
  show vchiqGetSlotAlignSize ((8 + sizes.size) % 4294967296) = 8 + _
  rw [hmod, vchiqGetSlotAlignSize_eq (show 8 + sizes.size + 7 < 4294967296 by omega)]
  omega

theorem SizesFit.size_le : ∀ {sizes : TxSizes}, SizesFit sizes → sizes.size ≤ vchiqMaxMsgSize
  | .buffer _, h => h
  | .elements _, h => h.1

/-- **Sizes that fit** are written inside the space for them. -/
theorem SizesFit.inside {sizes : TxSizes} (h : SizesFit sizes) {header : Nat} {w : Extent}
    (hw : w ∈ messageWrites header sizes) : w.Inside ⟨header, sizes.actualBufferSize⟩ := by
  rw [TxSizes.actualBufferSize_of_le h.size_le]
  rcases List.mem_cons.1 hw with rfl | hw
  · exact ⟨Nat.le_refl _, show header + 4 ≤ header + (8 + _) by omega⟩
  rcases List.mem_cons.1 hw with rfl | hw
  · exact ⟨Nat.le_add_right _ _, show header + 4 + 4 ≤ header + (8 + _) by omega⟩
  cases sizes with
  | buffer size =>
    replace hw : w ∈ if size = 0 then [] else [⟨header + vchiqHeaderSize, size⟩] := hw
    split_ifs at hw with hsize
    · cases hw
    · obtain rfl := List.mem_singleton.1 hw
      exact ⟨Nat.le_add_right _ _,
        show header + 8 + size ≤ header + (8 + (size + 7) / 8 * 8) by omega⟩
  | elements sizes =>
    have hbehind : header + 8 ≤ w.address := le_of_mem_elementWrites hw
    have hinside : w.address + w.length ≤ header + 8 + (sizes.sum + 7) / 8 * 8 :=
      elementsFit_iff.1 h.2 w hw
    exact ⟨show header ≤ w.address by omega,
      show w.address + w.length ≤ header + (8 + (sizes.sum + 7) / 8 * 8) by omega⟩

theorem SizesFit.actualBufferSize_le {sizes : TxSizes} (h : SizesFit sizes) :
    sizes.actualBufferSize ≤ vchiqSlotSize := by
  have hsize : sizes.size ≤ 4088 := h.size_le
  rw [TxSizes.actualBufferSize_of_le h.size_le]
  show 8 + (sizes.size + 7) / 8 * 8 ≤ 4096
  omega

/-- **Only sizes that fit** are written inside the space for them and before the end of a slot. -/
theorem sizesFit_of_inside {sizes : TxSizes} {header : Nat}
    (h : ∀ w ∈ messageWrites header sizes, w.Inside ⟨header, sizes.actualBufferSize⟩ ∧
      w.address + w.length ≤ header + vchiqSlotSize) : SizesFit sizes := by
  cases sizes with
  | buffer size =>
    by_cases hsize : size = 0
    · rw [hsize]
      exact Nat.zero_le _
    · have hmem : (⟨header + vchiqHeaderSize, size⟩ : Extent) ∈
          messageWrites header (.buffer size) := by
        refine List.mem_cons_of_mem _ (List.mem_cons_of_mem _ ?_)
        show _ ∈ if size = 0 then [] else [_]
        rw [if_neg hsize]
        exact List.mem_singleton_self _
      have hslot : header + 8 + size ≤ header + 4096 := (h _ hmem).2
      show size ≤ 4088
      omega
  | elements sizes =>
    have hwrites : ∀ w ∈ elementWrites (header + vchiqHeaderSize) sizes,
        w ∈ messageWrites header (.elements sizes) := fun w hw =>
      List.mem_cons_of_mem _ (List.mem_cons_of_mem _ hw)
    have hsum : sizes.sum ≤ vchiqMaxMsgSize := by
      rw [← sum_filter]
      by_cases hempty : sizes.filter (· ≠ 0) = []
      · rw [hempty]
        exact Nat.zero_le _
      · have hpos : ∀ size ∈ sizes.filter (· ≠ 0), size ≠ 0 := fun size hs => by
          simpa using (List.mem_filter.1 hs).2
        -- the last element ends inside the slot, and so does the sum of all
        have hle : header + vchiqHeaderSize + (sizes.filter (· ≠ 0)).sum ≤
            header + vchiqSlotSize :=
          sum_le_of_elementWrites hempty hpos fun w hw => by
            rw [← elementWrites_filter] at hw
            exact (h w (hwrites w hw)).2
        simp only [vchiqHeaderSize, vchiqSlotSize] at hle
        show _ ≤ 4088
        omega
    have hsize : (TxSizes.elements sizes).actualBufferSize = 8 + (sizes.sum + 7) / 8 * 8 :=
      TxSizes.actualBufferSize_of_le hsum
    have hfit : ∀ w ∈ elementWrites (header + vchiqHeaderSize) sizes,
        w.address + w.length ≤ header + vchiqHeaderSize + (sizes.sum + 7) / 8 * 8 := by
      intro w hw
      have hinside : w.address + w.length ≤ header + (TxSizes.elements sizes).actualBufferSize :=
        (h w (hwrites w hw)).1.2
      rw [hsize] at hinside
      show w.address + w.length ≤ header + 8 + (sizes.sum + 7) / 8 * 8
      omega
    exact ⟨hsum, elementsFit_iff.2 hfit⟩

/-- A simple payload is queued as a buffer of its bytes. -/
theorem queueAsync_simple {payload : TxPayload} (h : payload.Simple) (sh : SharedState)
    (tx : TxState) (msgId : Nat) (stopped : Bool) :
    queueAsync sh tx msgId payload stopped =
      queueAsync sh tx msgId (.buffer payload.bytes) stopped := by
  unfold queueAsync
  simp only [copyPayload_simple h]
  rfl

/-- **The elements are sent as one message** exactly when at most one of them is not empty. -/
theorem sameMessage_iff {elements : List (List UInt8)}
    (h : elements.flatten.length ≤ vchiqMaxMsgSize) :
    SameMessage elements ↔ (TxPayload.elements elements).Simple := by
  constructor
  · exact fun hsame => simple_of_written hsame.written
  · intro hsimple
    refine ⟨fun sh tx msgId stopped => ?_, fun m header msgId => ?_, fun header w hw => ?_⟩
    · exact queueAsync_simple hsimple sh tx msgId stopped
    · rw [copyElements_simple _ _ hsimple]
      exact load_message m header msgId elements.flatten
    · have hsum : (elements.map List.length).sum ≤ vchiqMaxMsgSize := by
        rwa [← List.length_flatten]
      have hone : ((elements.map List.length).filter (· ≠ 0)).length ≤ 1 := by
        rw [List.filter_map, List.length_map]
        exact hsimple
      have hfit : SizesFit (.elements (elements.map List.length)) := ⟨hsum, .inl hone⟩
      exact hfit.inside hw

theorem sameMessage_iff_three :
    SameMessage [[], [1, 2], []] ↔ (TxPayload.elements [[], [1, 2], []]).Simple :=
  sameMessage_iff (by decide)

/-- The second of two bytes is not behind the first one. -/
theorem two_elements : ¬ SameMessage [[1], [2]] := by
  intro h
  have hbytes := h.written (fun _ => 0) 0 0
  exact absurd hbytes (by decide)

/-! ## What a call writes -/

/-- Of a call that wants space for a message: padding is only written behind the position in the
current slot, and the message is written inside its space, in the current slot. -/
structure WritesConfined (sh : SharedState) (tx : TxState) (sizes : TxSizes) (stopped : Bool) :
    Prop where
  padding : vchiqSlotSize - slotOffset tx.currentTxPos < sizes.actualBufferSize →
    slotOffset tx.currentTxPos ≠ 0 ∧
      (⟨vchiqGetCurrentTxHeader tx, vchiqHeaderSize⟩ : Extent).Inside
        ⟨tx.slaveCurrentSlot, vchiqSlotSize⟩
  message : ∀ sh' tx' header,
    vchiqAcquireTxSpace sh tx ((vchiqHeaderSize + sizes.size) % ulongSize) stopped =
      (sh', tx', .ok header) →
    ∀ w ∈ messageWrites header sizes, w.Inside ⟨header, sizes.actualBufferSize⟩ ∧
      w.Inside ⟨tx'.slaveCurrentSlot, vchiqSlotSize⟩

/-- The call fails before it writes anything but the rest of a slot: it needs a new slot, there is
none, and the size is not larger than a slot at the beginning of one. -/
def Refused (tx : TxState) (sizes : TxSizes) : Prop :=
  tx.availableTxSlot = 0 ∧
    if slotOffset tx.currentTxPos = 0 then sizes.actualBufferSize ≤ vchiqSlotSize
    else vchiqSlotSize - slotOffset tx.currentTxPos < sizes.actualBufferSize

/-- Where the position is behind the padding, and whether a slot is there. -/
theorem padTxSlot_spec (sh : SharedState) (tx : TxState) (actual : Nat) :
    let padded := padTxSlot sh tx actual
    padded.2.availableTxSlot = tx.availableTxSlot ∧
      slotOffset padded.2.currentTxPos =
        if vchiqSlotSize - slotOffset tx.currentTxPos < actual then 0
        else slotOffset tx.currentTxPos := by
  by_cases hfull : vchiqSlotSize - slotOffset tx.currentTxPos < actual
  · simp only [padTxSlot, if_pos hfull, true_and]
    simp only [addPos, slotOffset_eq, vchiqSlotSize, ulongSize]
    omega
  · simp only [padTxSlot, if_neg hfull, and_self]

/-- **The outcome of the acquisition**: it fails when a slot is needed and there is none, and
otherwise the space begins at the position behind the padding. -/
theorem vchiqAcquireTxSpace_outcome (sh : SharedState) (tx : TxState) (request : Nat)
    (stopped : Bool) :
    let actual := vchiqGetSlotAlignSize request
    let offset := if vchiqSlotSize - slotOffset tx.currentTxPos < actual then 0
      else slotOffset tx.currentTxPos
    ((∃ e, (vchiqAcquireTxSpace sh tx request stopped).2.2 = .error e) ∧
        offset = 0 ∧ tx.availableTxSlot = 0) ∨
      ((vchiqAcquireTxSpace sh tx request stopped).2.2 =
          .ok ((vchiqAcquireTxSpace sh tx request stopped).2.1.slaveCurrentSlot + offset) ∧
        ¬ (offset = 0 ∧ tx.availableTxSlot = 0)) := by
  intro actual offset
  obtain ⟨hslots, hoffset⟩ := padTxSlot_spec sh tx actual
  replace hoffset : slotOffset (padTxSlot sh tx actual).2.currentTxPos = offset := hoffset
  simp only [vchiqAcquireTxSpace]
  rw [show vchiqGetSlotAlignSize request = actual from rfl]
  generalize padTxSlot sh tx actual = padded at hslots hoffset
  unfold nextTxSlot
  rw [hslots]
  by_cases hnew : slotOffset padded.2.currentTxPos = 0
  · rw [if_pos hnew]
    rw [hoffset] at hnew
    by_cases hnone : tx.availableTxSlot = 0
    · rw [if_pos hnone]
      exact .inl ⟨⟨_, rfl⟩, hnew, hnone⟩
    · rw [if_neg hnone]
      refine .inr ⟨?_, fun h => hnone h.2⟩
      simp only [vchiqGetCurrentTxHeader, hoffset]
  · rw [if_neg hnew]
    rw [hoffset] at hnew
    refine .inr ⟨?_, fun h => hnew h.1⟩
    simp only [vchiqGetCurrentTxHeader, hoffset]

theorem dvd_vchiqGetSlotAlignSize (size : Nat) :
    slotMsgSizeAlign ∣ vchiqGetSlotAlignSize size := by
  rw [vchiqGetSlotAlignSize, and_alignMask (Nat.mod_lt _ (by decide))]
  exact Dvd.intro_left _ rfl

theorem dvd_addPos {pos n : Nat} (hpos : slotMsgSizeAlign ∣ pos) (hn : slotMsgSizeAlign ∣ n) :
    slotMsgSizeAlign ∣ addPos pos n :=
  (Nat.dvd_mod_iff (by decide)).2 (Nat.dvd_add hpos hn)

/-- **Positions stay aligned**, as the assertion of `VchiqAcquireTxSpace` has it. -/
theorem dvd_currentTxPos (sh : SharedState) {tx : TxState} (request : Nat) (stopped : Bool)
    (h : slotMsgSizeAlign ∣ tx.currentTxPos) :
    slotMsgSizeAlign ∣ (vchiqAcquireTxSpace sh tx request stopped).2.1.currentTxPos := by
  have hpad : slotMsgSizeAlign ∣
      (padTxSlot sh tx (vchiqGetSlotAlignSize request)).2.currentTxPos := by
    by_cases hfull : vchiqSlotSize - slotOffset tx.currentTxPos < vchiqGetSlotAlignSize request
    · simp only [padTxSlot, if_pos hfull]
      refine dvd_addPos h ((Nat.dvd_sub_iff_right ?_ (by decide)).2 ?_)
      · rw [slotOffset_eq]
        exact Nat.le_of_lt (Nat.mod_lt _ (by decide))
      · rw [slotOffset_eq]
        exact (Nat.dvd_mod_iff (by decide)).2 h
    · simp only [padTxSlot, if_neg hfull]
      exact h
  simp only [vchiqAcquireTxSpace]
  generalize padTxSlot sh tx (vchiqGetSlotAlignSize request) = padded at hpad
  cases hslot : nextTxSlot padded.1 padded.2 stopped with
  | error e => exact hpad
  | ok tx' =>
    refine dvd_addPos ?_ (dvd_vchiqGetSlotAlignSize request)
    unfold nextTxSlot at hslot
    split_ifs at hslot
    all_goals
      obtain rfl := Except.ok.inj hslot
      exact hpad

/-- **A call writes inside its space** exactly when its sizes fit, or it is refused. -/
theorem confined_iff {sh : SharedState} {tx : TxState} {sizes : TxSizes} {stopped : Bool}
    (h : slotMsgSizeAlign ∣ tx.currentTxPos) :
    WritesConfined sh tx sizes stopped ↔ SizesFit sizes ∨ Refused tx sizes := by
  have houtcome := vchiqAcquireTxSpace_outcome sh tx ((vchiqHeaderSize + sizes.size) % ulongSize)
    stopped
  rw [← TxSizes.actualBufferSize] at houtcome
  have halign : slotOffset tx.currentTxPos % 8 = 0 := by
    obtain ⟨k, hk⟩ := h
    rw [hk, slotOffset_eq]
    simp only [slotMsgSizeAlign]
    omega
  have hlt : slotOffset tx.currentTxPos < 4096 := by
    rw [slotOffset_eq]
    exact Nat.mod_lt _ (by decide)
  constructor
  · intro hconfined
    rcases houtcome with ⟨-, hoffset, hnone⟩ | ⟨hok, -⟩
    · refine .inr ⟨hnone, ?_⟩
      split_ifs with hzero
      · by_contra hlarge
        refine (hconfined.padding ?_).1 hzero
        rw [hzero]
        exact Nat.not_le.1 hlarge
      · by_contra hroom
        rw [if_neg hroom] at hoffset
        exact hzero hoffset
    · have hmessage := hconfined.message _ _ _ (Prod.ext rfl (Prod.ext rfl hok))
      have hheader := (hmessage _ List.mem_cons_self).2.1
      refine .inl (sizesFit_of_inside fun w hw => ⟨(hmessage w hw).1, ?_⟩)
      exact Nat.le_trans (hmessage w hw).2.2 (Nat.add_le_add_right hheader _)
  · intro hcond
    refine ⟨fun hpad => ⟨fun hzero => ?_, ?_⟩, fun sh' tx' header hacquire w hw => ?_⟩
    · -- padding at the beginning of a slot is for a size that is larger than a slot
      rw [hzero] at hpad
      rcases hcond with hfit | ⟨-, hroom⟩
      · have hle := hfit.actualBufferSize_le
        simp only [vchiqSlotSize] at hpad hle
        omega
      · rw [if_pos hzero] at hroom
        exact absurd hpad (Nat.not_lt.2 hroom)
    · refine ⟨Nat.le_add_right _ _, ?_⟩
      simp only [vchiqGetCurrentTxHeader, vchiqHeaderSize, vchiqSlotSize]
      omega
    · rcases houtcome with ⟨⟨e, herror⟩, -⟩ | ⟨hok, hroom⟩
      · rw [hacquire] at herror
        cases herror
      rw [hacquire] at hok
      dsimp only at hok
      obtain rfl := Except.ok.inj hok
      rcases hcond with hfit | ⟨hnone, hrefused⟩
      · have hinside := hfit.inside hw
        refine ⟨hinside, Nat.le_trans (Nat.le_add_right _ _) hinside.1,
          Nat.le_trans hinside.2 ?_⟩
        have hle := hfit.actualBufferSize_le
        simp only [vchiqSlotSize] at hle ⊢
        split_ifs <;> omega
      · refine absurd ⟨?_, hnone⟩ hroom
        by_cases hzero : slotOffset tx.currentTxPos = 0
        · rw [hzero, ite_self]
        · rw [if_neg hzero] at hrefused
          exact if_pos hrefused

theorem confined_iff_padded :
    WritesConfined ⟨fun _ => 0, fun _ => 1, 0, 0⟩ ⟨4088, 0, 1, 0⟩ (.elements [1, 8]) false ↔
      SizesFit (.elements [1, 8]) ∨ Refused ⟨4088, 0, 1, 0⟩ (.elements [1, 8]) :=
  confined_iff (by decide)

/-- A buffer that is one byte too large reaches into the slot behind it. -/
theorem buffer_too_large :
    ¬ WritesConfined ⟨fun _ => 0, fun _ => 1, 0, 0⟩ ⟨0, 0, 1, 0⟩ (.buffer 4089) false := by
  intro h
  have hwrite := (h.message _ _ _ rfl ⟨4096 + 8, 4089⟩ (by decide)).2
  exact absurd hwrite (by decide)

end RpiDrivers.Vchiq
