import RpiDrivers.Sdhc.SendCommand

/-!
# The offset that hides the start of a card (`bcm2836sdhc.c`)

`WorkAroundOffset` moves block 0 of the disk that the OS sees. `SdhcGetResponse` takes the offset
off the size of the card when the OS reads the CSD, and `SdhcSendCommand` adds it to the argument of
each command with a transfer, in the request of the caller. `DriverEntry` reads it from the
registry.

- `toldBlocks_eq`: the capacity that the OS is told.
- `sdhcSendCommand_argument`: the argument that is sent.
- `Translated`: **block commands address the block behind the offset, within the card**, and other
  commands are sent as they are, however often the same request is issued.
- `TranslatesWhen`: the condition. `translated_iff`: the two are the same.
- `offset_of_one_byte`: the offset 0x9d000 becomes 0, and an offset of 1 is added twice.
-/

namespace RpiDrivers.Sdhc.WorkAroundOffset

open SendCommand

/-! ## The registry -/

/-- The bytes of a `REG_DWORD` -/
def dwordData (value : UInt32) : Fin 4 → UInt8 := fun i => (value >>> (8 * i.val).toUInt32).toUInt8

/-- `DriverEntry`: `(ULONG)*(Value->Data)` -/
def driverEntry (value : UInt32) : Nat := (dwordData value 0).toNat

/-- Only the first byte is read. -/
theorem driverEntry_eq (value : UInt32) : driverEntry value = value.toNat % 2 ^ 8 := by
  simp [driverEntry, dwordData]

/-! ## The size of the card -/

/-- `CardSize`, in the second word of the response to CMD9 -/
def cardSize (response1 : BitVec 32) : BitVec 32 := response1 >>> 8 &&& 0x3FFFFF

/-- The number of blocks of the card -/
def blocks (response1 : BitVec 32) : Nat := ((cardSize response1).toNat + 1) * 1024

/-- The size of the card without what is before the offset -/
def reduceCardSize (workAroundOffset response1 : BitVec 32) : BitVec 32 :=
  let originalCardSize := cardSize response1
  let workaroundCardSize := originalCardSize - workAroundOffset / 1024
  response1 &&& ~~~((0x3FFFFF : BitVec 32) <<< 8) ||| workaroundCardSize <<< 8

/-- `SdhcGetResponseLength` -/
def sdhcGetResponseLength : ResponseType → Nat
  | .r1 | .r3 | .r4 | .r5 | .r6 | .r1b | .r5b => 4
  | .r2 => 16
  | .none | .undefined => 0

/-- `SdhcGetResponse`, for the words of the response registers -/
def sdhcGetResponse (workAroundOffset : Nat) (index : Nat) (responseType : ResponseType)
    (response : Fin 4 → BitVec 32) : List (BitVec 32) :=
  match sdhcGetResponseLength responseType with
  | 4 => [response 0]
  | 16 =>
    [response 0,
      if index = 9 then reduceCardSize (BitVec.ofNat 32 workAroundOffset) (response 1)
      else response 1,
      response 2, response 3]
  | _ => []

/-- The capacity that the OS is told in the response to CMD9, in blocks. -/
def toldBlocks (workAroundOffset : Nat) (response : Fin 4 → BitVec 32) : Nat :=
  blocks ((sdhcGetResponse workAroundOffset 9 .r2 response).getD 1 0)

/-- The new size reads back. -/
theorem cardSize_reduceCardSize {w response1 : BitVec 32} (h : w / 1024 ≤ cardSize response1) :
    cardSize (reduceCardSize w response1) = cardSize response1 - w / 1024 := by
  have hsmall : (cardSize response1 - w / 1024).toNat < 2 ^ 22 := by
    have hlt : (cardSize response1).toNat < 2 ^ 22 := by
      rw [cardSize, BitVec.toNat_and]
      exact Nat.lt_of_le_of_lt Nat.and_le_right (by decide)
    rw [BitVec.toNat_sub_of_le h]
    omega
  have hhigh : ∀ i, 22 ≤ i → (cardSize response1 - w / 1024).getLsbD i = false := by
    intro i hi
    exact Nat.testBit_lt_two_pow
      (Nat.lt_of_lt_of_le hsmall (Nat.pow_le_pow_right (by decide) hi))
  have hmask : ∀ i < 32, (0x3FFFFF : BitVec 32).getLsbD i = decide (i < 22) := by decide
  have hcleared : ∀ i < 32, (~~~((0x3FFFFF : BitVec 32) <<< 8)).getLsbD i =
      decide (i < 8 ∨ 30 ≤ i) := by decide
  refine BitVec.eq_of_getLsbD_eq fun i hi => ?_
  generalize hsize : cardSize response1 - w / 1024 = size at hhigh ⊢
  rw [cardSize, reduceCardSize, hsize, BitVec.getLsbD_and, BitVec.getLsbD_ushiftRight,
    BitVec.getLsbD_or, BitVec.getLsbD_and, hmask i hi]
  by_cases hlow : i < 22
  · rw [hcleared (8 + i) (by omega)]
    have hshift : (size <<< 8).getLsbD (8 + i) = size.getLsbD i := by
      rw [BitVec.getLsbD_shiftLeft, Nat.add_sub_cancel_left]
      simp [show 8 + i < 32 by omega]
    have hclear : decide (8 + i < 8 ∨ 30 ≤ 8 + i) = false := decide_eq_false (by omega)
    rw [hclear, hshift, decide_eq_true hlow, Bool.and_false, Bool.false_or, Bool.and_true]
  · simp [hlow, hhigh i (Nat.not_lt.1 hlow)]

/-- **The capacity is reduced by the offset**, in units of 1024 blocks. -/
theorem toldBlocks_eq {w : Nat} {response : Fin 4 → BitVec 32} (hw : w < 2 ^ 32)
    (h : w / 1024 ≤ (cardSize (response 1)).toNat) :
    toldBlocks w response + w / 1024 * 1024 = blocks (response 1) := by
  have hdiv : (BitVec.ofNat 32 w / 1024).toNat = w / 1024 := by
    rw [BitVec.toNat_udiv, BitVec.toNat_ofNat, Nat.mod_eq_of_lt hw]
    rfl
  have hle : BitVec.ofNat 32 w / 1024 ≤ cardSize (response 1) := by
    rw [BitVec.le_def, hdiv]
    exact h
  show blocks (reduceCardSize (BitVec.ofNat 32 w) (response 1)) + _ = _
  rw [blocks, cardSize_reduceCardSize hle, BitVec.toNat_sub_of_le hle, hdiv, blocks]
  omega

/-! ## The argument -/

/-- The argument before the offset is added. CMD53 has its count put into it. -/
def ownArgument (r : SdportRequest) : Nat :=
  if r.index = sdcmdIoRwExtended then countArgument (adjust r) else r.argument

/-- A data command. -/
structure DataCommand (r : SdportRequest) : Prop where
  type : r.type = .commandWithTransfer
  hasData : r.transferType ≠ .none ∧ r.transferType ≠ .undefined
  argument : r.argument < 2 ^ 32

section Argument

variable {r r' : SdportRequest} {e e' : Extension} {internal : Bool}

theorem workAroundOffset_start
    (h : SendCommand.sdhcStartNonBlockSizeAlignedRequest e internal r = some e') :
    e'.workAroundOffset = e.workAroundOffset := by
  rw [SendCommand.sdhcStartNonBlockSizeAlignedRequest] at h
  split_ifs at h <;> cases h <;> rfl

/-- The transfer mode is set for the adjusted request with its own argument. -/
theorem sdhcSetTransferMode_ok {sent : SdportRequest} {mode : TransferMode}
    (h : sdhcSetTransferMode e internal r = some (.ok (e', sent, mode))) :
    sent = { adjust r with argument := ownArgument r } ∧
      e'.workAroundOffset = e.workAroundOffset := by
  rw [sdhcSetTransferMode] at h
  split_ifs at h with hreject hzero
  · cases h
  obtain ⟨e₁, hstart, hsent⟩ := Option.map_eq_some_iff.1 h
  cases hsent
  have hkept := workAroundOffset_start hstart
  refine ⟨?_, hkept⟩
  by_cases hindex : r.index = sdcmdIoRwExtended
  · rw [if_pos ((adjust_index r).trans hindex), ownArgument, if_pos hindex]
  · rw [if_neg fun hi => hindex ((adjust_index r).symm.trans hi), ownArgument, if_neg hindex,
      ← adjust_argument]

/-- **The argument that is sent**, and that the caller's request has afterwards. -/
theorem sdhcSendCommand_argument (hr : DataCommand r)
    (h : sdhcSendCommand e internal r = some (e', r', .pending)) :
    e'.registers.argument = (ownArgument r + e.workAroundOffset) % 2 ^ 32 ∧
      r'.argument = (ownArgument r + e.workAroundOffset) % 2 ^ 32 ∧ r'.index = r.index ∧
      r'.type = r.type ∧ r'.transferType = r.transferType ∧
      e'.workAroundOffset = e.workAroundOffset := by
  rw [sdhcSendCommand, if_pos hr.hasData] at h
  obtain ⟨built, hbuilt, hwrite⟩ := Option.map_eq_some_iff.1 h
  rw [sdhcBuildTransfer] at hbuilt
  cases hmethod : r.transferMethod with
  | sgDma =>
    rw [hmethod] at hbuilt
    cases hbuilt
    cases hwrite
  | undefined =>
    rw [hmethod] at hbuilt
    cases hbuilt
    cases hwrite
  | pio =>
    rw [hmethod] at hbuilt
    cases built with
    | error status =>
      cases hwrite
      rw [sdhcSetTransferMode] at hbuilt
      split_ifs at hbuilt with hreject hzero
      · cases hbuilt
      obtain ⟨e₁, -, hsent⟩ := Option.map_eq_some_iff.1 hbuilt
      cases hsent
    | ok sent =>
      obtain ⟨e₁, sent, mode⟩ := sent
      obtain ⟨rfl, hoffset⟩ := sdhcSetTransferMode_ok hbuilt
      have htype : (adjust r).type = .commandWithTransfer := (adjust_type r).trans hr.type
      have hdata : (adjust r).transferType = r.transferType := by rw [adjust_eq]
      simp only [writeCommand, htype, if_true, hoffset] at hwrite
      split at hwrite
      · cases hwrite
      · cases hwrite
        exact ⟨rfl, rfl, adjust_index r, hr.type.symm, hdata, rfl⟩

end Argument

/-- Issuing the same request again and again: the request as the caller has it, and the argument
that is sent. -/
inductive Issued (workAroundOffset : Nat) :
    SdportRequest → List (SdportRequest × Nat) → Prop
  | done (r : SdportRequest) : Issued workAroundOffset r []
  | issue {r r' : SdportRequest} {e e' : Extension} {issues : List (SdportRequest × Nat)}
      (hoffset : e.workAroundOffset = workAroundOffset)
      (hsend : sdhcSendCommand e false r = some (e', r', .pending))
      (hrest : Issued workAroundOffset r' issues) :
      Issued workAroundOffset r ((r, e'.registers.argument) :: issues)

/-- `READ_SINGLE_BLOCK`, `READ_MULTIPLE_BLOCK`, `WRITE_BLOCK` and `WRITE_MULTIPLE_BLOCK` -/
def BlockCommand (r : SdportRequest) : Prop := r.index ∈ [17, 18, 24, 25]

instance (r : SdportRequest) : Decidable (BlockCommand r) := inferInstanceAs (Decidable (_ ∈ _))

/-- **What is sent for a request**, each time it is issued: for a block command the block behind
the offset, on the card; for another one its own argument. CMD53 aside, that is the argument the
request had at first. -/
def Translated (value : UInt32) (response : Fin 4 → BitVec 32) (r : SdportRequest)
    (issues : List (SdportRequest × Nat)) : Prop :=
  ∀ x ∈ issues,
    if BlockCommand r then
      x.2 = r.argument + value.toNat ∧ x.2 < blocks (response 1)
    else x.2 = ownArgument x.1 ∧ (r.index ≠ sdcmdIoRwExtended → x.2 = r.argument)

/-- The condition: an offset that fits a byte for a block command that is issued once, none for one
that is issued again, and no low byte for another command. -/
def TranslatesWhen (value : UInt32) (response : Fin 4 → BitVec 32) (r : SdportRequest)
    (issues : Nat) : Prop :=
  if BlockCommand r then
    match issues with
    | 0 => True
    | 1 => value.toNat < 2 ^ 8 ∧ r.argument + value.toNat < blocks (response 1)
    | _ + 2 => value.toNat = 0
  else issues = 0 ∨ value.toNat % 2 ^ 8 = 0

/-! ## Every issue -/

section Issues

variable {r : SdportRequest} {w : Nat} {issues : List (SdportRequest × Nat)}
  {value : UInt32} {response : Fin 4 → BitVec 32}

/-- What the first issue sends, and what is left for the others. -/
theorem Issued.cons_inv (hr : DataCommand r) {x : SdportRequest × Nat}
    (h : Issued w r (x :: issues)) :
    ∃ r', x = (r, (ownArgument r + w) % 2 ^ 32) ∧ Issued w r' issues ∧ DataCommand r' ∧
      r'.argument = (ownArgument r + w) % 2 ^ 32 ∧ r'.index = r.index := by
  cases h with
  | issue hoffset hsend hrest =>
    obtain ⟨hsent, hargument, hindex, htype, hdata, -⟩ := sdhcSendCommand_argument hr hsend
    rw [hoffset] at hsent hargument
    refine ⟨_, Prod.ext rfl hsent, hrest, ⟨htype.trans hr.type, ?_, ?_⟩, hargument, hindex⟩
    · rw [hdata]
      exact hr.hasData
    · rw [hargument]
      exact Nat.mod_lt _ (by decide)

theorem ownArgument_block (h : BlockCommand r) : ownArgument r = r.argument := by
  refine if_neg fun hindex => ?_
  rw [BlockCommand, hindex] at h
  exact absurd h (by decide)

theorem ownArgument_lt (hr : DataCommand r) : ownArgument r < 2 ^ 32 := by
  rw [ownArgument]
  split_ifs
  · rw [countArgument]
    split_ifs <;> exact RwExtendedArgument.pack_lt _
  · exact hr.argument

/-- Without an offset the same argument is sent each time. -/
theorem Issued.unchanged (hr : DataCommand r) (h : Issued 0 r issues) :
    ∀ x ∈ issues, x.2 = ownArgument x.1 ∧
      (r.index ≠ sdcmdIoRwExtended → x.2 = r.argument) := by
  induction issues generalizing r with
  | nil =>
    intro x hx
    cases hx
  | cons y issues ih =>
    obtain ⟨r', rfl, hrest, hr', hargument, hindex⟩ := h.cons_inv hr
    have hown : r.index ≠ sdcmdIoRwExtended → ownArgument r = r.argument :=
      fun hne => if_neg hne
    rw [Nat.add_zero, Nat.mod_eq_of_lt (ownArgument_lt hr)] at hargument ⊢
    rintro x (_ | ⟨_, hx⟩)
    · exact ⟨rfl, hown⟩
    · obtain ⟨hsent, hkept⟩ := ih hr' hrest x hx
      refine ⟨hsent, fun hne => ?_⟩
      rw [hkept (hindex ▸ hne), hargument, hown hne]

/-- The card has no more blocks than there are arguments. -/
theorem blocks_le (response1 : BitVec 32) : blocks response1 ≤ 2 ^ 32 := by
  have hlt : (cardSize response1).toNat < 2 ^ 22 := by
    rw [cardSize, BitVec.toNat_and]
    exact Nat.lt_of_le_of_lt Nat.and_le_right (by decide)
  rw [blocks]
  omega

/-- A byte is less than 1024 blocks, so the capacity is never reduced. -/
theorem toldBlocks_driverEntry : toldBlocks (driverEntry value) response = blocks (response 1) := by
  have hbyte : driverEntry value < 2 ^ 8 := by
    rw [driverEntry_eq]
    exact Nat.mod_lt _ (by decide)
  have hzero : driverEntry value / 1024 = 0 := Nat.div_eq_of_lt (by omega)
  have htold : toldBlocks (driverEntry value) response + _ = blocks (response 1) :=
    toldBlocks_eq (by omega) (by rw [hzero]; exact Nat.zero_le _)
  rwa [hzero, Nat.zero_mul, Nat.add_zero] at htold

/-- **Commands are translated** exactly when the offset fits a byte and the block is still on the
card, when there is no offset and the request is issued again, and when the offset does not touch a
command that is not for a block. -/
theorem translated_iff (hr : DataCommand r) (h : Issued (driverEntry value) r issues)
    (htold : BlockCommand r → r.argument < toldBlocks (driverEntry value) response) :
    Translated value response r issues ↔ TranslatesWhen value response r issues.length := by
  rw [toldBlocks_driverEntry] at htold
  have hw : driverEntry value = value.toNat % 2 ^ 8 := driverEntry_eq value
  have hblocks := blocks_le (response 1)
  have hzero : value.toNat % 2 ^ 8 = 0 → ∀ x ∈ issues, x.2 = ownArgument x.1 ∧
      (r.index ≠ sdcmdIoRwExtended → x.2 = r.argument) := by
    intro hnone
    rw [hw, hnone] at h
    exact h.unchanged hr
  unfold Translated TranslatesWhen
  cases issues with
  | nil =>
    refine iff_of_true (fun x hx => ?_) ?_
    · cases hx
    · split_ifs
      · trivial
      · exact .inl rfl
  | cons x issues =>
    obtain ⟨r', hx, hrest, hr', hargument, hindex⟩ := h.cons_inv hr
    have hsent : x.2 = (ownArgument r + driverEntry value) % 2 ^ 32 := congrArg Prod.snd hx
    by_cases hblock : BlockCommand r
    · have hne : r.index ≠ sdcmdIoRwExtended := by
        intro heq
        rw [BlockCommand, heq] at hblock
        exact absurd hblock (by decide)
      have hlba := htold hblock
      rw [ownArgument_block hblock] at hsent hargument
      simp only [if_pos hblock, List.length_cons]
      cases issues with
      | nil =>
        simp only [List.mem_singleton, forall_eq, List.length_nil]
        constructor
        · rintro ⟨heq, hlt⟩
          omega
        · rintro ⟨hbyte, hlt⟩
          omega
      | cons y issues =>
        -- the second command is shifted again, so only no offset is right
        show _ ↔ value.toNat = 0
        constructor
        · intro hall
          obtain ⟨r'', hy, -⟩ := hrest.cons_inv hr'
          have hblock' : BlockCommand r' := by
            rw [BlockCommand, hindex]
            exact hblock
          have hsent' : y.2 = (r'.argument + driverEntry value) % 2 ^ 32 := by
            rw [← ownArgument_block hblock']
            exact congrArg Prod.snd hy
          obtain ⟨hfirst, -⟩ := hall x (.head _)
          obtain ⟨hsecond, -⟩ := hall y (.tail _ (.head _))
          omega
        · intro hnone z hz
          have hkept := (hzero (by rw [hnone]; rfl) z hz).2 hne
          omega
    · simp only [if_neg hblock, List.length_cons]
      -- any other command is right only when nothing is added
      have hown := ownArgument_lt hr
      constructor
      · intro hall
        obtain ⟨hfirst, -⟩ := hall x (.head _)
        have hx1 : x.1 = r := congrArg Prod.fst hx
        rw [hx1] at hfirst
        omega
      · rintro (hlength | hnone)
        · omega
        · exact hzero hnone

end Issues

/-! ## Reading a block -/

/-- `READ_SINGLE_BLOCK` -/
def readBlock (lba : Nat) : SdportRequest where
  type := .commandWithTransfer
  index := 17
  responseType := .r1
  commandType := .undefined
  transferType := .singleBlock
  transferMethod := .pio
  transferDirection := some .read
  argument := lba
  length := 512
  blockSize := 512
  blockCount := 1
  dataBuffer := 0

/-- The driver before the first command -/
def initialized (workAroundOffset : Nat) : Extension where
  workAroundOffset := workAroundOffset
  unalignedReqState := .idle
  unalignedRequest := readBlock 0
  registers := ⟨0, 0, 0, 0⟩

/-- The CSD of a card of 8192 blocks -/
def smallCard : Fin 4 → BitVec 32 := fun i => if i = 1 then 0x700 else 0

theorem dataCommand_readBlock {lba : Nat} (h : lba < 2 ^ 32) : DataCommand (readBlock lba) :=
  ⟨rfl, ⟨TransferType.noConfusion, TransferType.noConfusion⟩, h⟩

theorem adjust_readBlock (lba : Nat) : adjust (readBlock lba) = readBlock lba := by
  simp [adjust, readBlock]

/-- The request is sent, and has the new argument from then on. -/
theorem issued_readBlock {w lba : Nat} {issues : List (SdportRequest × Nat)}
    (hrest : Issued w (readBlock ((lba + w) % 2 ^ 32)) issues) :
    Issued w (readBlock lba) ((readBlock lba, (lba + w) % 2 ^ 32) :: issues) := by
  obtain ⟨e', hsend, hargument⟩ : ∃ e', sdhcSendCommand (initialized w) false (readBlock lba) =
      some (e', readBlock ((lba + w) % 2 ^ 32), .pending) ∧
      e'.registers.argument = (lba + w) % 2 ^ 32 := by
    have hmode : sdhcSetTransferMode (initialized w) false (readBlock lba) =
        some (.ok ({ initialized w with registers := ⟨1, 1 <<< 16 ||| 512, 0, 0⟩ },
          readBlock lba, { transferRead := true })) := by
      rw [sdhcSetTransferMode, if_neg (by simp [readBlock]), if_neg (by simp [readBlock])]
      simp only [adjust_readBlock]
      rfl
    rw [sdhcSendCommand, if_pos ⟨TransferType.noConfusion, TransferType.noConfusion⟩]
    show ∃ e', (sdhcSetTransferMode (initialized w) false (readBlock lba)).map _ = _ ∧ _
    rw [hmode]
    exact ⟨_, rfl, rfl⟩
  rw [← hargument]
  exact .issue rfl hsend hrest

/-- With an offset of 1 block 5 is read from block 6 of the card. -/
theorem translated_once : Translated 1 smallCard (readBlock 5) [(readBlock 5, 6)] :=
  (translated_iff (dataCommand_readBlock (show 5 < 2 ^ 32 by decide))
    (issued_readBlock (.done _))
    (fun _ => show 5 < toldBlocks (driverEntry 1) smallCard by decide +kernel)).2
    (show 1 < 2 ^ 8 ∧ 5 + 1 < blocks (smallCard 1) by decide +kernel)

/-- The offset 0x9d000 becomes 0, and an offset of 1 is added once more when the request is issued
again. -/
theorem offset_of_one_byte :
    (Issued (driverEntry 0x9d000) (readBlock 0) [(readBlock 0, 0)] ∧
      ¬ Translated 0x9d000 (fun _ => 0x3FFFFF00) (readBlock 0) [(readBlock 0, 0)]) ∧
    Issued (driverEntry 1) (readBlock 5) [(readBlock 5, 6), (readBlock 6, 7)] ∧
      ¬ Translated 1 smallCard (readBlock 5) [(readBlock 5, 6), (readBlock 6, 7)] := by
  refine ⟨⟨issued_readBlock (.done _), fun h => ?_⟩,
    issued_readBlock (issued_readBlock (.done _)), fun h => ?_⟩
  · exact absurd (h _ (.head _)).1 (by decide)
  · exact absurd (h _ (.tail _ (.head _))).1 (by decide)

end RpiDrivers.Sdhc.WorkAroundOffset
