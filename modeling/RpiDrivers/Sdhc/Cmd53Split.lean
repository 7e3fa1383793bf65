import RpiDrivers.Sdhc.SendCommand

/-!
# The commands of a CMD53 request (`bcm2836sdhc.c`)

A CMD53 request becomes one command, or two when its length is no multiple of the block size: the
whole blocks, and the internal request for the rest. The argument of a command tells the card how
many bytes to expect, and the controller is programmed with a block count and a block size.

- `cmd53Commands`: the commands of a request, with what each of them moves.
- `SplitSound`: **the commands cover the bytes of the request**, one behind the other, and card and
  controller are told the same number of bytes.
- `Splits`: the condition on the request.
- `splitSound_iff`: the two are the same for every request that the driver does not reject.
- `block_and_rest`: one block and a rest; the card is told the length of the whole request.
-/

namespace RpiDrivers.Sdhc.Cmd53Split

open RpiDrivers.Lib SendCommand RwExtendedArgument

/-! ## The commands -/

/-- A command: what the card gets, what the controller is programmed with, and the addresses that
are accessed when its blocks are moved. -/
structure IssuedCommand where
  argument : Nat
  blockSizeCount : Nat
  moved : List Nat

namespace IssuedCommand

variable (c : IssuedCommand)

/-- The fields of `SDHC_BLOCK_SIZE_COUNT`. -/
def blockCount : Nat := c.blockSizeCount / 2 ^ 16

def blockSize : Nat := c.blockSizeCount % 2 ^ 16

/-- The bytes that the argument stands for: blocks, or bytes, where a count of 0 is 512 bytes. -/
def encodedBytes : Nat :=
  let x := unpack c.argument
  if x.blockMode = 1 then x.count * c.blockSize
  else if x.count = 0 then 2 ^ 9
  else x.count

end IssuedCommand

/-- `SdhcStartPioTransfer`, once for each block. -/
def pioTransfer (blockSize : Nat) : Nat → Nat → List Nat
  | 0, _ => []
  | blocks + 1, dataBuffer =>
    dataPort dataBuffer blockSize ++ pioTransfer blockSize blocks (dataBuffer + blockSize)

theorem pioTransfer_eq (blockSize : Nat) :
    ∀ blocks dataBuffer : Nat,
      pioTransfer blockSize blocks dataBuffer = List.range' dataBuffer (blocks * blockSize) := by
  intro blocks
  induction blocks with
  | zero =>
    intro dataBuffer
    rw [Nat.zero_mul]
    rfl
  | succ blocks ih =>
    intro dataBuffer
    rw [pioTransfer, ih, dataPort_eq, List.range'_append_1, Nat.succ_mul, Nat.add_comm]

/-- The extension as `SdhcSlotInitialize` leaves it. `DriverEntry` reads one byte of
`WorkAroundOffset` from the registry. -/
def slotInitialize (workAroundOffset : UInt8) : Extension where
  workAroundOffset := workAroundOffset.toNat
  unalignedReqState := .idle
  unalignedRequest :=
    ⟨.commandNoTransfer, 0, .undefined, .undefined, .none, .undefined, none, 0, 0, 0, 0, 0⟩
  registers := ⟨0, 0, 0, 0⟩

/-- The command that has been written, and its blocks. -/
def issued (e : Extension) (sent : SdportRequest) : IssuedCommand :=
  ⟨e.registers.argument, e.registers.blockSizeCount,
    pioTransfer sent.blockSize sent.blockCount sent.dataBuffer⟩

/-- The commands that are issued for a request, and the status of the last call of
`SdhcSendCommand`; `none` when the driver divides by zero. -/
def cmd53Commands (workAroundOffset : UInt8) (r : SdportRequest) :
    Option (List IssuedCommand × SendStatus) :=
  (sdhcSendCommand (slotInitialize workAroundOffset) false r).bind fun (e, sent, status) =>
    if status ≠ .pending then some ([], status)
    -- the DPC after the last block, when `BlockCount` is 0
    else if e.unalignedReqState = .ready then
      (sdhcSendCommand { e with unalignedReqState := .sendCommand } true e.unalignedRequest).map
        fun (e', sent', status) =>
          if status ≠ .pending then ([issued e sent], status)
          else ([issued e sent, issued e' sent'], status)
    else some ([issued e sent], status)

/-! ## What they have to cover -/

/-- A CMD53 request. -/
structure IsCmd53 (r : SdportRequest) : Prop where
  index : r.index = sdcmdIoRwExtended
  type : r.type = .commandWithTransfer
  responseType : r.responseType = .r5
  hasData : r.transferType ≠ .none ∧ r.transferType ≠ .undefined

/-- A command moves `bytes` bytes of the request, from the byte `done` on. -/
structure Covers (r : SdportRequest) (done bytes : Nat) (c : IssuedCommand) : Prop where
  programmed : c.blockCount * c.blockSize = bytes
  encoded : c.encodedBytes = bytes
  moved : c.moved = List.range' (r.dataBuffer + done) bytes
  /-- the card's address goes on where the last command has ended, or stays -/
  address : (unpack c.argument).address =
    (unpack r.argument).address + if (unpack r.argument).opCode = 0 then 0 else done
  opCode : (unpack c.argument).opCode = (unpack r.argument).opCode
  function : (unpack c.argument).function = (unpack r.argument).function
  writeToDevice : (unpack c.argument).writeToDevice = (unpack r.argument).writeToDevice
  /-- the number of blocks, or of bytes, fits into the field of the argument -/
  fits : if (unpack c.argument).blockMode = 1 then c.blockCount < 2 ^ 9 else bytes ≤ 2 ^ 9

/-- The commands cover the rest of the request, one behind the other. -/
def CoverFrom (r : SdportRequest) : Nat → List IssuedCommand → Prop
  | done, [] => done = r.length
  | done, c :: cs => ∃ bytes, Covers r done bytes c ∧ CoverFrom r (done + bytes) cs

/-- **The commands of a request cover its bytes**, unless the driver rejects it. -/
def SplitSound (workAroundOffset : UInt8) (r : SdportRequest) : Prop :=
  ∃ cs status, cmd53Commands workAroundOffset r = some (cs, status) ∧ (cs ≠ [] → CoverFrom r 0 cs)

/-- The driver rejects the request. -/
def Rejected (r : SdportRequest) : Prop :=
  2048 < r.blockSize ∨ r.transferDirection = none ∨ r.transferMethod ≠ .pio

/-- The condition: no offset; at most one block, or two and more; counts that fit; and an address
that does not wrap. -/
structure Splits (workAroundOffset : UInt8) (r : SdportRequest) : Prop where
  offset : workAroundOffset = 0
  blocks : 0 < r.length ∧ r.length ≤ r.blockSize ∧ r.length ≤ 2 ^ 9 ∨
    0 < r.blockSize ∧ 2 * r.blockSize ≤ r.length ∧ r.length / r.blockSize < 2 ^ 9 ∧
      r.length % r.blockSize ≤ 2 ^ 9 ∧
      (r.length % r.blockSize = 0 ∨ (unpack r.argument).opCode = 0 ∨
        (unpack r.argument).address + r.length / r.blockSize * r.blockSize < 2 ^ 17)

instance (r : SdportRequest) : Decidable (Rejected r) :=
  inferInstanceAs (Decidable (_ ∨ _ ∨ _))

/-! ## A call of `SdhcSendCommand` -/

section Send

variable {r : SdportRequest} {w : UInt8} {e : Extension} {internal : Bool}

/-- The command for a request whose blocks have been adjusted. -/
def commandOf (workAroundOffset : Nat) (a : SdportRequest) : IssuedCommand :=
  ⟨(countArgument a + workAroundOffset) % 2 ^ 32, a.blockCount <<< 16 ||| a.blockSize,
    pioTransfer a.blockSize a.blockCount a.dataBuffer⟩

theorem sdhcSendCommand_rejected (e : Extension) (internal : Bool) (h : IsCmd53 r)
    (hrej : Rejected r) :
    ∃ status, status ≠ .pending ∧ sdhcSendCommand e internal r = some (e, r, status) := by
  rw [sdhcSendCommand, if_pos h.hasData, sdhcBuildTransfer]
  cases hmethod : r.transferMethod with
  | undefined => exact ⟨.notSupported, SendStatus.noConfusion, rfl⟩
  | sgDma => exact ⟨.notImplemented, SendStatus.noConfusion, rfl⟩
  | pio =>
    refine ⟨.invalidParameter, SendStatus.noConfusion, ?_⟩
    have hcheck : (2048 < r.blockSize || r.transferDirection = none) = true := by
      rcases hrej with hsize | hdir | hpio
      · simp [hsize]
      · simp [hdir]
      · exact absurd hmethod hpio
    simp only [sdhcSetTransferMode, hcheck, if_true, Option.map_some]

/-- What has been checked of a request that is not rejected. -/
theorem checks_of_not_rejected (hrej : ¬ Rejected r) :
    (2048 < r.blockSize || r.transferDirection = none) = false ∧ r.transferMethod = .pio := by
  simp only [Rejected, not_or, not_not] at hrej
  simp [hrej.1, hrej.2.1, hrej.2.2]

/-- The internal request is set up first, and then the command is written. -/
theorem sdhcSendCommand_cmd53 (h : IsCmd53 r) (hrej : ¬ Rejected r) (hsize : r.blockSize ≠ 0) :
    sdhcSendCommand e internal r =
      (SendCommand.sdhcStartNonBlockSizeAlignedRequest e internal (adjust r)).map fun e' =>
        let sent := { adjust r with argument := countArgument (adjust r) }
        writeCommand
          { e' with registers := { e'.registers with
              sysaddr := sent.blockCount
              blockSizeCount := sent.blockCount <<< 16 ||| sent.blockSize } }
          sent (transferMode sent).toNat := by
  obtain ⟨hcheck, hmethod⟩ := checks_of_not_rejected hrej
  have hindex : (adjust r).index = sdcmdIoRwExtended := by rw [adjust_index, h.index]
  rw [sdhcSendCommand, if_pos h.hasData, sdhcBuildTransfer, hmethod]
  simp only [sdhcSetTransferMode, hcheck, Bool.false_eq_true, if_false, if_neg hsize,
    Option.map_map, if_pos hindex]
  rfl

/-- A division by a block size of zero stops the driver. -/
theorem sdhcSendCommand_zero (h : IsCmd53 r) (hrej : ¬ Rejected r) (hsize : r.blockSize = 0) :
    sdhcSendCommand e internal r = none := by
  obtain ⟨hcheck, hmethod⟩ := checks_of_not_rejected hrej
  rw [sdhcSendCommand, if_pos h.hasData, sdhcBuildTransfer, hmethod]
  simp only [sdhcSetTransferMode, hcheck, Bool.false_eq_true, if_false, if_pos hsize,
    Option.map_none]

/-- What is written for a CMD53 request. -/
theorem writeCommand_cmd53 (sent : SdportRequest) (htype : sent.type = .commandWithTransfer)
    (hresponse : sent.responseType = .r5) (mode : Nat) :
    ∃ e', writeCommand e sent mode =
        (e', { sent with argument := (sent.argument + e.workAroundOffset) % 2 ^ 32 }, .pending) ∧
      e'.unalignedReqState = e.unalignedReqState ∧ e'.unalignedRequest = e.unalignedRequest ∧
      e'.workAroundOffset = e.workAroundOffset ∧
      e'.registers.argument = (sent.argument + e.workAroundOffset) % 2 ^ 32 ∧
      e'.registers.blockSizeCount = e.registers.blockSizeCount := by
  rw [writeCommand, if_pos htype]
  simp only [hresponse, responseBits]
  exact ⟨_, rfl, rfl, rfl, rfl, rfl, rfl⟩

/-- The command of a request, when the driver goes on with `e'`. -/
theorem sdhcSendCommand_issued (h : IsCmd53 r) (hrej : ¬ Rejected r) (hsize : r.blockSize ≠ 0)
    {e₁ : Extension}
    (hstart : SendCommand.sdhcStartNonBlockSizeAlignedRequest e internal (adjust r) = some e₁) :
    ∃ e' sent, sdhcSendCommand e internal r = some (e', sent, .pending) ∧
      issued e' sent = commandOf e₁.workAroundOffset (adjust r) ∧
      e'.unalignedReqState = e₁.unalignedReqState ∧ e'.unalignedRequest = e₁.unalignedRequest ∧
      e'.workAroundOffset = e₁.workAroundOffset := by
  have htype : (adjust r).type = .commandWithTransfer := by rw [adjust_type, h.type]
  have hresponse : (adjust r).responseType = .r5 := by rw [adjust_responseType, h.responseType]
  rw [sdhcSendCommand_cmd53 h hrej hsize, hstart, Option.map_some]
  obtain ⟨e', hwrite, hstate, hrequest, hoffset, hargument, hblocks⟩ := writeCommand_cmd53
    (e := { e₁ with registers := { e₁.registers with
      sysaddr := (adjust r).blockCount
      blockSizeCount := (adjust r).blockCount <<< 16 ||| (adjust r).blockSize } })
    { adjust r with argument := countArgument (adjust r) } htype hresponse
    (transferMode { adjust r with argument := countArgument (adjust r) }).toNat
  refine ⟨e', _, congrArg some hwrite, ?_, hstate, hrequest, hoffset⟩
  rw [issued, hargument, hblocks, commandOf]

/-- The request is covered by one command. -/
theorem cmd53Commands_one (h : IsCmd53 r) (hrej : ¬ Rejected r) (hsize : r.blockSize ≠ 0)
    (hall : r.length ≤ (adjust r).blockCount * (adjust r).blockSize) :
    cmd53Commands w r = some ([commandOf w.toNat (adjust r)], .pending) := by
  have hindex : (adjust r).index = sdcmdIoRwExtended := by rw [adjust_index, h.index]
  have hlength := adjust_length r
  have hstart : SendCommand.sdhcStartNonBlockSizeAlignedRequest (slotInitialize w) false
      (adjust r) = some (slotInitialize w) := by
    rw [SendCommand.sdhcStartNonBlockSizeAlignedRequest, if_neg (not_not.2 hindex),
      if_neg Bool.false_ne_true, if_neg (by omega)]
  obtain ⟨e', sent, hsend, hissued, hstate, -, -⟩ := sdhcSendCommand_issued h hrej hsize hstart
  have hidle : e'.unalignedReqState ≠ .ready := by
    rw [hstate]
    exact UnalignedReqState.noConfusion
  rw [cmd53Commands, hsend, Option.bind_some]
  simp only [ne_eq, not_true_eq_false, if_false, if_neg hidle, hissued]
  rfl

/-- When bytes are left over, the driver stops, or the internal request fails, or it becomes the
second command. -/
theorem cmd53Commands_rest (h : IsCmd53 r) (hrej : ¬ Rejected r) (hsize : r.blockSize ≠ 0)
    (hrest : (adjust r).blockCount * (adjust r).blockSize < r.length) :
    let p := SendCommand.sdhcPrepareInternalRequest (adjust r)
    let first := commandOf w.toNat (adjust r)
    ((adjust r).blockSize = 0 ∨ ¬ Rejected p ∧ p.blockSize = 0) ∧ cmd53Commands w r = none ∨
      Rejected p ∧ (∃ status, cmd53Commands w r = some ([first], status)) ∨
      (adjust r).blockSize ≠ 0 ∧ ¬ Rejected p ∧ p.blockSize ≠ 0 ∧
        cmd53Commands w r = some ([first, commandOf w.toNat (adjust p)], .pending) := by
  intro p first
  have hindex : (adjust r).index = sdcmdIoRwExtended := by rw [adjust_index, h.index]
  have hlength := adjust_length r
  by_cases hzero : (adjust r).blockSize = 0
  · have hstart : SendCommand.sdhcStartNonBlockSizeAlignedRequest (slotInitialize w) false
        (adjust r) = none := by
      rw [SendCommand.sdhcStartNonBlockSizeAlignedRequest, if_neg (not_not.2 hindex),
        if_neg Bool.false_ne_true, if_pos (by omega), if_pos hzero]
    left
    refine ⟨.inl hzero, ?_⟩
    rw [cmd53Commands, sdhcSendCommand_cmd53 h hrej hsize, hstart]
    rfl
  have hstart : SendCommand.sdhcStartNonBlockSizeAlignedRequest (slotInitialize w) false
      (adjust r) = some { slotInitialize w with
        unalignedRequest := p
        unalignedReqState := .ready } := by
    rw [SendCommand.sdhcStartNonBlockSizeAlignedRequest, if_neg (not_not.2 hindex),
      if_neg Bool.false_ne_true, if_pos (by omega), if_neg hzero]
  obtain ⟨e', sent, hsend, hissued, hstate, hrequest, hoffset⟩ :=
    sdhcSendCommand_issued h hrej hsize hstart
  have hp : IsCmd53 p :=
    ⟨hindex, (adjust_type r).trans h.type, (adjust_responseType r).trans h.responseType,
      TransferType.noConfusion, TransferType.noConfusion⟩
  have hfirst : issued e' sent = first := hissued
  have hcommands : cmd53Commands w r =
      (sdhcSendCommand { e' with unalignedReqState := .sendCommand } true p).map
        fun (e'', sent', status) =>
          if status ≠ .pending then ([first], status)
          else ([first, issued e'' sent'], status) := by
    rw [cmd53Commands, hsend, Option.bind_some]
    simp only [ne_eq, not_true_eq_false, if_false, hstate, if_true, hrequest, hfirst]
  rw [hcommands]
  -- the internal command is rejected, stopped or issued
  by_cases hprej : Rejected p
  · obtain ⟨status, hne, hfail⟩ := sdhcSendCommand_rejected
      { e' with unalignedReqState := .sendCommand } true hp hprej
    refine .inr (.inl ⟨hprej, status, ?_⟩)
    rw [hfail]
    exact congrArg some (if_pos hne)
  by_cases hpzero : p.blockSize = 0
  · exact .inl ⟨.inr ⟨hprej, hpzero⟩, by rw [sdhcSendCommand_zero hp hprej hpzero, Option.map_none]⟩
  · have hpindex : (adjust p).index = sdcmdIoRwExtended := by
      rw [← hp.index, adjust]
      split_ifs <;> rfl
    have hpstart : SendCommand.sdhcStartNonBlockSizeAlignedRequest
        { e' with unalignedReqState := .sendCommand } true (adjust p) =
          some { e' with unalignedReqState := .sendCommand } := by
      rw [SendCommand.sdhcStartNonBlockSizeAlignedRequest, if_neg (not_not.2 hpindex), if_pos rfl]
    obtain ⟨e'', sent', hsend', hissued', -, -, -⟩ :=
      sdhcSendCommand_issued hp hprej hpzero hpstart
    have hsecond : issued e'' sent' = commandOf w.toNat (adjust p) := by
      rw [hissued']
      exact congrArg (commandOf · (adjust p)) hoffset
    refine .inr (.inr ⟨hzero, hprej, hpzero, ?_⟩)
    rw [hsend', ← hsecond]
    rfl

end Send

/-! ## What a command tells the card -/

section Covers

variable {r a : SdportRequest} {w done bytes : Nat}

/-- The bytes that the card is told: so many blocks, or the length of the request. -/
def Tells (w : Nat) (a : SdportRequest) (bytes : Nat) : Prop :=
  if 1 < a.blockCount then
    a.blockCount < 2 ^ 9 ∧ a.blockCount + w < 2 ^ 9 ∧ (a.blockCount + w) * a.blockSize = bytes
  else
    bytes ≤ 2 ^ 9 ∧ a.length % 2 ^ 9 + w < 2 ^ 9 ∧
      (if a.length % 2 ^ 9 + w = 0 then 2 ^ 9 else a.length % 2 ^ 9 + w) = bytes

@[simp] theorem blockCount_commandOf (hsize : a.blockSize < 2 ^ 16) :
    (commandOf w a).blockCount = a.blockCount := by
  show (a.blockCount <<< 16 ||| a.blockSize) / 2 ^ 16 = a.blockCount
  rw [← Nat.shiftLeft_add_eq_or_of_lt hsize, Nat.shiftLeft_eq]
  omega

@[simp] theorem blockSize_commandOf (hsize : a.blockSize < 2 ^ 16) :
    (commandOf w a).blockSize = a.blockSize := by
  show (a.blockCount <<< 16 ||| a.blockSize) % 2 ^ 16 = a.blockSize
  rw [← Nat.shiftLeft_add_eq_or_of_lt hsize, Nat.shiftLeft_eq]
  omega

/-- The fields of the argument, without the offset. -/
def sentArgument (a : SdportRequest) : RwExtendedArgument :=
  if 1 < a.blockCount then { unpack a.argument with count := a.blockCount, blockMode := 1 }
  else { unpack a.argument with count := a.length, blockMode := 0 }

theorem countArgument_eq (a : SdportRequest) : countArgument a = pack (sentArgument a) := by
  rw [countArgument, sentArgument]
  split_ifs <;> rfl

/-- **A command covers its bytes** when card and controller are told the same number, and the
address does not wrap. -/
theorem covers_commandOf_iff (hw : w < 2 ^ 8) (hsize : a.blockSize < 2 ^ 16)
    (hbuffer : a.dataBuffer = r.dataBuffer + done)
    (hargument : unpack a.argument = { unpack r.argument with
      address := ((unpack r.argument).address +
        if (unpack r.argument).opCode = 0 then 0 else done) % 2 ^ 17 }) :
    Covers r done bytes (commandOf w a) ↔
      a.blockCount * a.blockSize = bytes ∧
        ((unpack r.argument).address +
          if (unpack r.argument).opCode = 0 then 0 else done) < 2 ^ 17 ∧
        Tells w a bytes := by
  generalize hgoal : ((unpack r.argument).address +
    if (unpack r.argument).opCode = 0 then 0 else done) = goal at hargument ⊢
  have hsent : (sentArgument a).address = goal % 2 ^ 17 := by
    rw [sentArgument]
    split_ifs <;> rw [hargument]
  have hmoved : (commandOf w a).moved = List.range' (r.dataBuffer + done)
      (a.blockCount * a.blockSize) := by
    rw [commandOf, pioTransfer_eq, hbuffer]
  have hword : (commandOf w a).argument = (pack (sentArgument a) + w) % 2 ^ 32 := by
    rw [commandOf, countArgument_eq]
  constructor
  · intro h
    have haddress := h.address
    rw [hgoal] at haddress
    have hlt : goal < 2 ^ 17 := by
      rw [← haddress, unpack]
      exact Nat.mod_lt _ (by decide)
    -- the card has the address of the bytes, so adding `w` has not carried into it
    have hkept : (unpack (commandOf w a).argument).address = (sentArgument a).address % 2 ^ 17 := by
      rw [haddress, hsent, Nat.mod_mod, Nat.mod_eq_of_lt hlt]
    rw [hword] at hkept
    obtain ⟨hfits, hfields⟩ := unpack_add (by omega) hkept
    rw [← hword] at hfields
    have hprogrammed := h.programmed
    rw [blockCount_commandOf hsize, blockSize_commandOf hsize] at hprogrammed
    refine ⟨hprogrammed, hlt, ?_⟩
    have hencoded := h.encoded
    have hcount := h.fits
    simp only [IssuedCommand.encodedBytes, hfields, blockCount_commandOf hsize,
      blockSize_commandOf hsize] at hencoded hcount
    rw [Tells]
    -- in block mode the count is of blocks, else it is of bytes
    by_cases hblocks : 1 < a.blockCount
    · simp only [sentArgument, if_pos hblocks, cut, if_true] at hfits hencoded hcount
      rw [Nat.mod_eq_of_lt hcount] at hfits hencoded
      rw [if_pos hblocks]
      exact ⟨hcount, hfits, hencoded⟩
    · simp only [sentArgument, if_neg hblocks, cut] at hfits hencoded hcount
      rw [if_neg hblocks]
      exact ⟨hcount, hfits, hencoded⟩
  · rintro ⟨hprogrammed, hlt, htells⟩
    -- a count that is told has room for `w`, so the other fields stay
    have hcount : (sentArgument a).count % 2 ^ 9 + w < 2 ^ 9 := by
      rw [Tells] at htells
      rw [sentArgument]
      split_ifs at htells ⊢ with hblocks
      · rw [Nat.mod_eq_of_lt htells.1]
        exact htells.2.1
      · exact htells.2.1
      · exact htells.2.1
    have haddress : (unpack ((pack (sentArgument a) + w) % 2 ^ 32)).address =
        (sentArgument a).address % 2 ^ 17 := by
      simp only [unpack, pack]
      omega
    obtain ⟨-, hfields⟩ := unpack_add (by omega) haddress
    rw [← hword] at hfields
    constructor
    case programmed => rw [blockCount_commandOf hsize, blockSize_commandOf hsize, hprogrammed]
    case moved => rw [hmoved, hprogrammed]
    case address =>
      rw [hgoal, hfields]
      show (sentArgument a).address % 2 ^ 17 = goal
      rw [hsent, Nat.mod_mod, Nat.mod_eq_of_lt hlt]
    case encoded =>
      rw [Tells] at htells
      simp only [IssuedCommand.encodedBytes, hfields, blockSize_commandOf hsize]
      rw [sentArgument]
      by_cases hblocks : 1 < a.blockCount
      · rw [if_pos hblocks] at htells ⊢
        simp only [cut, if_true, Nat.mod_eq_of_lt htells.1]
        exact htells.2.2
      · rw [if_neg hblocks] at htells ⊢
        simp only [cut]
        exact htells.2.2
    case fits =>
      rw [Tells] at htells
      simp only [hfields, blockCount_commandOf hsize]
      rw [sentArgument]
      by_cases hblocks : 1 < a.blockCount
      · rw [if_pos hblocks] at htells ⊢
        simp only [cut, if_true]
        exact htells.1
      · rw [if_neg hblocks] at htells ⊢
        simp only [cut]
        exact htells.1
    all_goals
      rw [hfields, sentArgument]
      split_ifs <;> simp only [cut, hargument] <;>
        exact Nat.mod_eq_of_lt (Nat.mod_lt _ (by decide))

end Covers

/-! ## The request as a whole -/

section Split

variable {r : SdportRequest} {w : UInt8}

theorem coverFrom_one {c : IssuedCommand} : CoverFrom r 0 [c] ↔ Covers r 0 r.length c := by
  constructor
  · rintro ⟨bytes, hcovers, hlength⟩
    have hlength : 0 + bytes = r.length := hlength
    rw [Nat.zero_add] at hlength
    exact hlength ▸ hcovers
  · exact fun h => ⟨r.length, h, Nat.zero_add _⟩

theorem coverFrom_two {c c' : IssuedCommand} :
    CoverFrom r 0 [c, c'] ↔
      ∃ bytes bytes', Covers r 0 bytes c ∧ Covers r bytes bytes' c' ∧
        bytes + bytes' = r.length := by
  constructor
  · rintro ⟨bytes, hcovers, bytes', hcovers', hlength⟩
    rw [Nat.zero_add] at hcovers' hlength
    exact ⟨bytes, bytes', hcovers, hcovers', hlength⟩
  · rintro ⟨bytes, bytes', hcovers, hcovers', hlength⟩
    refine ⟨bytes, hcovers, bytes', ?_, ?_⟩ <;> rw [Nat.zero_add]
    · exact hcovers'
    · exact hlength

theorem offset_lt (w : UInt8) : w.toNat < 2 ^ 8 := w.toNat_lt

theorem adjust_small (h : r.length / r.blockSize % 2 ^ 16 = 0) :
    adjust r = { r with
      blockCount := 1
      blockSize := r.length % 2 ^ 16 } := by
  simp only [adjust, h, if_true]

theorem adjust_blocks (h : r.length / r.blockSize % 2 ^ 16 ≠ 0) :
    adjust r = { r with blockCount := r.length / r.blockSize % 2 ^ 16 } := by
  simp only [adjust, if_neg h]

theorem blockSize_adjust_lt (hrej : ¬ Rejected r) : (adjust r).blockSize < 2 ^ 16 := by
  simp only [Rejected, not_or] at hrej
  rw [adjust]
  split_ifs
  · exact Nat.mod_lt _ (by decide)
  · exact Nat.lt_of_le_of_lt (Nat.not_lt.1 hrej.1) (by decide)

/-- The first command covers its bytes when card and controller are told the same number. -/
theorem covers_first (hrej : ¬ Rejected r) (bytes : Nat) :
    Covers r 0 bytes (commandOf w.toNat (adjust r)) ↔
      (adjust r).blockCount * (adjust r).blockSize = bytes ∧ Tells w.toNat (adjust r) bytes := by
  have haddress : (unpack r.argument).address < 2 ^ 17 := Nat.mod_lt _ (by decide)
  have hzero : ((unpack r.argument).address +
      if (unpack r.argument).opCode = 0 then 0 else 0) = (unpack r.argument).address := by
    rw [ite_self, Nat.add_zero]
  have hfirst : Covers r 0 bytes (commandOf w.toNat (adjust r)) ↔ _ :=
    covers_commandOf_iff (offset_lt w) (blockSize_adjust_lt hrej) (adjust_dataBuffer r) (by
      rw [adjust_argument, hzero, Nat.mod_eq_of_lt haddress])
  rw [hfirst, hzero]
  exact ⟨fun h => ⟨h.1, h.2.2⟩, fun h => ⟨h.1, haddress, h.2⟩⟩

/-- The second command, after the first one has moved `blocks * size` bytes. -/
theorem covers_second {a p : SdportRequest} (hp : p = SendCommand.sdhcPrepareInternalRequest a)
    (hbuffer : a.dataBuffer = r.dataBuffer) (hargument : a.argument = r.argument)
    (hprej : ¬ Rejected p) (bytes : Nat) :
    Covers r (a.blockCount * a.blockSize) bytes (commandOf w.toNat (adjust p)) ↔
      (adjust p).blockCount * (adjust p).blockSize = bytes ∧
        ((unpack r.argument).address +
          if (unpack r.argument).opCode = 0 then 0 else a.blockCount * a.blockSize) < 2 ^ 17 ∧
        Tells w.toNat (adjust p) bytes := by
  refine covers_commandOf_iff (offset_lt w) (blockSize_adjust_lt hprej) ?_ ?_
  · rw [adjust_dataBuffer, hp, ← hbuffer, Nat.mul_comm a.blockCount]
    rfl
  · rw [adjust_argument, hp, SendCommand.sdhcPrepareInternalRequest, hargument]
    by_cases hop : (unpack r.argument).opCode = 0
    · have haddress : (unpack r.argument).address % 2 ^ 17 = (unpack r.argument).address :=
        Nat.mod_eq_of_lt (Nat.mod_lt _ (by decide))
      simp only [hop, ne_eq, not_true_eq_false, if_false, if_true, Nat.add_zero, haddress]
      rw [← hop]
    · simp only [ne_eq, hop, not_false_eq_true, if_true, if_false, unpack_pack_address,
        Nat.mul_comm a.blockSize]

/-- The internal request is a single block. -/
theorem adjust_internal {a : SdportRequest} (hpos : 0 < a.blockSize) (hsize : a.blockSize < 2 ^ 16)
    (hrest : a.length % a.blockSize ≠ 0) :
    let p := SendCommand.sdhcPrepareInternalRequest a
    p.blockSize = a.length % a.blockSize ∧ (adjust p).blockCount = 1 ∧
      (adjust p).blockSize = a.length % a.blockSize ∧
      (adjust p).length = a.length % a.blockSize := by
  intro p
  have hlt := Nat.mod_lt a.length hpos
  have hp : p.blockSize = a.length % a.blockSize :=
    Nat.mod_eq_of_lt (Nat.lt_trans hlt hsize)
  have hdiv : p.length / p.blockSize % 2 ^ 16 = 1 := by
    rw [hp]
    show a.length % a.blockSize / (a.length % a.blockSize) % 2 ^ 16 = 1
    rw [Nat.div_self (Nat.pos_of_ne_zero hrest)]
    rfl
  rw [adjust_blocks (by rw [hdiv]; decide)]
  exact ⟨hp, hdiv, hp, rfl⟩

theorem rejected_internal (hrej : ¬ Rejected r) :
    Rejected (SendCommand.sdhcPrepareInternalRequest (adjust r)) ↔
      2048 < (SendCommand.sdhcPrepareInternalRequest (adjust r)).blockSize := by
  simp only [Rejected, not_or] at hrej ⊢
  simp only [SendCommand.sdhcPrepareInternalRequest, adjust_transferDirection,
    adjust_transferMethod, hrej.2.1, hrej.2.2, or_false]

/-- **The condition is enough.** -/
theorem Splits.sound (h : IsCmd53 r) (hrej : ¬ Rejected r) (hs : Splits w r) : SplitSound w r := by
  have hw : w.toNat = 0 := by rw [hs.offset]; rfl
  have hmax := Nat.not_lt.1 fun hlt => hrej (.inl hlt)
  rcases hs.blocks with ⟨hpos, hle, hfits⟩ | ⟨hpos, htwo, hcount, hrest, haddress⟩
  · have hsize : r.blockSize ≠ 0 := by omega
    -- one block, as long as the request
    have ha : (adjust r).blockCount = 1 ∧ (adjust r).blockSize = r.length := by
      rcases Nat.lt_or_eq_of_le hle with hlt | heq
      · rw [adjust_small (by rw [Nat.div_eq_of_lt hlt, Nat.zero_mod])]
        exact ⟨rfl, Nat.mod_eq_of_lt (by omega)⟩
      · have hdiv : r.length / r.blockSize % 2 ^ 16 = 1 := by
          rw [heq, Nat.div_self (by omega)]
          rfl
        rw [adjust_blocks (by rw [hdiv]; decide)]
        exact ⟨hdiv, heq.symm⟩
    have hall : r.length ≤ (adjust r).blockCount * (adjust r).blockSize := by
      rw [ha.1, ha.2, Nat.one_mul]
    refine ⟨_, _, cmd53Commands_one h hrej hsize hall, fun _ =>
      coverFrom_one.2 ((covers_first hrej _).2 ⟨by rw [ha.1, ha.2, Nat.one_mul], ?_⟩)⟩
    rw [Tells, ha.1, if_neg (by decide), adjust_length, hw]
    refine ⟨hfits, Nat.mod_lt _ (by decide), ?_⟩
    split_ifs <;> omega
  · have hdiv : 2 ≤ r.length / r.blockSize := (Nat.le_div_iff_mul_le hpos).2 htwo
    have hmod : r.length / r.blockSize % 2 ^ 16 = r.length / r.blockSize :=
      Nat.mod_eq_of_lt (by omega)
    have ha : (adjust r).blockCount = r.length / r.blockSize ∧
        (adjust r).blockSize = r.blockSize := by
      rw [adjust_blocks (by omega)]
      exact ⟨hmod, rfl⟩
    have htotal := Nat.div_add_mod' r.length r.blockSize
    have hfirst : Covers r 0 (r.length / r.blockSize * r.blockSize)
        (commandOf w.toNat (adjust r)) := by
      refine (covers_first hrej _).2 ⟨by rw [ha.1, ha.2], ?_⟩
      rw [Tells, ha.1, ha.2, if_pos (by omega), hw]
      exact ⟨hcount, hcount, rfl⟩
    by_cases hzero : r.length % r.blockSize = 0
    · have hlength : r.length / r.blockSize * r.blockSize = r.length := by omega
      have hall : r.length ≤ (adjust r).blockCount * (adjust r).blockSize := by
        rw [ha.1, ha.2, hlength]
      rw [hlength] at hfirst
      exact ⟨_, _, cmd53Commands_one h hrej (by omega) hall, fun _ => coverFrom_one.2 hfirst⟩
    · have hleft : (adjust r).blockCount * (adjust r).blockSize < r.length := by
        rw [ha.1, ha.2]
        omega
      have hmodA : (adjust r).length % (adjust r).blockSize = r.length % r.blockSize := by
        rw [adjust_length, ha.2]
      have hlt := Nat.mod_lt r.length hpos
      obtain ⟨hpsize, hpcount, hpblock, hplength⟩ := adjust_internal (a := adjust r)
        (by omega) (by omega) (by omega)
      rw [hmodA] at hpsize hpblock hplength
      have hprej : ¬ Rejected (SendCommand.sdhcPrepareInternalRequest (adjust r)) := by
        rw [rejected_internal hrej]
        omega
      have hcommands := cmd53Commands_rest (w := w) h hrej (by omega) hleft
      rcases hcommands with ⟨hbad | ⟨-, hbad⟩, -⟩ | ⟨hbad, -⟩ | ⟨-, -, -, hcommands⟩
      · omega
      · omega
      · exact absurd hbad hprej
      · refine ⟨_, _, hcommands, fun _ => coverFrom_two.2
          ⟨_, r.length % r.blockSize, hfirst, ?_, htotal⟩⟩
        have hsecond := (covers_second (w := w) (r := r) (a := adjust r) rfl (adjust_dataBuffer r)
          (adjust_argument r) hprej (r.length % r.blockSize)).2
        rw [ha.1, ha.2, hpcount, hpblock, Nat.one_mul] at hsecond
        refine hsecond ⟨rfl, ?_, ?_⟩
        · have hbound : (unpack r.argument).address < 2 ^ 17 := Nat.mod_lt _ (by decide)
          rcases haddress with hnone | hop | hfits
          · exact absurd hnone hzero
          · rw [if_pos hop]
            exact hbound
          · split_ifs <;> omega
        · rw [Tells, hpcount, if_neg (by decide), hplength, hw]
          refine ⟨hrest, Nat.mod_lt _ (by decide), ?_⟩
          split_ifs <;> omega

/-- The blocks of a sound request are not cut off, and at least one of them is left. -/
theorem blocks_of_total (hpos : 0 < r.blockSize) (hmax : r.blockSize ≤ 2048)
    (htotal : (adjust r).blockCount * (adjust r).blockSize = r.length ∨
      (adjust r).blockSize ≠ 0 ∧ (adjust r).blockCount * (adjust r).blockSize < r.length ∧
      (adjust r).blockCount * (adjust r).blockSize + r.length % (adjust r).blockSize = r.length) :
    r.length < r.blockSize ∧ (adjust r).blockCount = 1 ∧ (adjust r).blockSize = r.length ∨
      0 < r.length / r.blockSize ∧ (adjust r).blockCount = r.length / r.blockSize ∧
        (adjust r).blockSize = r.blockSize := by
  have hdivmod := Nat.div_add_mod' r.length r.blockSize
  have hrest := Nat.mod_lt r.length hpos
  by_cases hcount : r.length / r.blockSize % 2 ^ 16 = 0
  · rw [adjust_small hcount] at htotal ⊢
    left
    have hlength : r.length % 2 ^ 16 = r.length := by
      have htotal : 1 * (r.length % 2 ^ 16) = r.length ∨ r.length % 2 ^ 16 ≠ 0 ∧
          1 * (r.length % 2 ^ 16) < r.length ∧
          1 * (r.length % 2 ^ 16) + r.length % (r.length % 2 ^ 16) = r.length := htotal
      rw [Nat.one_mul] at htotal
      rcases htotal with hall | ⟨hne, hlt, hall⟩
      · exact hall
      · -- the rest is smaller than the cut block size, and cannot make up for what was cut off
        have hlast := Nat.mod_lt r.length (Nat.pos_of_ne_zero hne)
        omega
    have hcut := Nat.mod_lt r.length (show 0 < 2 ^ 16 by decide)
    have hquotient : r.length / r.blockSize = 0 := by
      have hlt : r.length / r.blockSize < 2 ^ 16 :=
        Nat.lt_of_le_of_lt (Nat.div_le_self _ _) (by rw [← hlength]; exact hcut)
      rwa [Nat.mod_eq_of_lt hlt] at hcount
    refine ⟨?_, rfl, hlength⟩
    rcases Nat.div_eq_zero_iff.1 hquotient with hzero | hlt
    · omega
    · exact hlt
  · rw [adjust_blocks hcount] at htotal ⊢
    right
    simp only at htotal ⊢
    have hmul : r.length / r.blockSize % 2 ^ 16 * r.blockSize =
        r.length / r.blockSize * r.blockSize := by
      rcases htotal with hall | ⟨-, -, hall⟩
      · have hle := Nat.mul_le_mul_right r.blockSize (Nat.mod_le (r.length / r.blockSize) (2 ^ 16))
        omega
      · omega
    have heq := Nat.eq_of_mul_eq_mul_right hpos hmul
    exact ⟨by omega, heq, trivial⟩

/-- **The condition is necessary.** -/
theorem SplitSound.splits (h : IsCmd53 r) (hrej : ¬ Rejected r) (hsound : SplitSound w r) :
    Splits w r := by
  have hmax := Nat.not_lt.1 fun hlt => hrej (.inl hlt)
  obtain ⟨cs, status, hcommands, hcover⟩ := hsound
  have hsize : r.blockSize ≠ 0 := by
    intro hzero
    rw [cmd53Commands, sdhcSendCommand_zero h hrej hzero] at hcommands
    cases hcommands
  have hpos := Nat.pos_of_ne_zero hsize
  have hw := offset_lt w
  have hwzero : w.toNat = 0 → w = 0 := fun hz => UInt8.toNat_inj.1 hz
  -- the whole blocks are the request, or a second command moves the rest
  by_cases hall : r.length ≤ (adjust r).blockCount * (adjust r).blockSize
  · rw [cmd53Commands_one h hrej hsize hall] at hcommands
    cases hcommands
    obtain ⟨htotal, htells⟩ := (covers_first hrej _).1
      (coverFrom_one.1 (hcover (List.cons_ne_nil _ _)))
    rw [Tells, adjust_length] at htells
    rcases blocks_of_total hpos hmax (.inl htotal) with ⟨hlt, hone, -⟩ | ⟨hdiv, hcount, hblock⟩
    · rw [hone, if_neg (by decide)] at htells
      obtain ⟨hfits, hcarry, htold⟩ := htells
      refine ⟨hwzero ?_, .inl ⟨?_, hlt.le, hfits⟩⟩ <;> split_ifs at htold <;> omega
    · rw [hcount, hblock] at htells htotal
      have hrest : r.length % r.blockSize = 0 := by
        have hdivmod := Nat.div_add_mod' r.length r.blockSize
        omega
      split_ifs at htells with htwo
      · obtain ⟨hcountLt, hcarry, htold⟩ := htells
        have heq := Nat.eq_of_mul_eq_mul_right hpos (htold.trans htotal.symm)
        refine ⟨hwzero (by omega), .inr ⟨hpos, ?_, hcountLt, by omega, .inl hrest⟩⟩
        exact (Nat.le_div_iff_mul_le hpos).1 htwo
      all_goals
        obtain ⟨hfits, hcarry, htold⟩ := htells
        have hone : r.length / r.blockSize = 1 := by omega
        rw [hone, Nat.one_mul] at htotal
        exact ⟨hwzero (by omega), .inl ⟨by omega, by omega, hfits⟩⟩
  · have hleft := Nat.not_le.1 hall
    rcases cmd53Commands_rest (w := w) h hrej hsize hleft with
      ⟨-, hnone⟩ | ⟨-, status', hone⟩ | ⟨hzero, hprej, hpzero, htwo⟩
    · rw [hnone] at hcommands
      cases hcommands
    · rw [hone] at hcommands
      cases hcommands
      have hfirst := (covers_first hrej _).1 (coverFrom_one.1 (hcover (List.cons_ne_nil _ _)))
      exact absurd hfirst.1 hleft.ne
    · rw [htwo] at hcommands
      cases hcommands
      obtain ⟨bytes, bytes', hfirst, hsecond, hsum⟩ :=
        coverFrom_two.1 (hcover (List.cons_ne_nil _ _))
      obtain ⟨rfl, htells⟩ := (covers_first hrej _).1 hfirst
      -- the second command covers what the first one has left
      have hrest : (adjust r).length % (adjust r).blockSize ≠ 0 := by
        intro hnone
        refine hpzero ?_
        show (adjust r).length % (adjust r).blockSize % 2 ^ 16 = 0
        rw [hnone, Nat.zero_mod]
      obtain ⟨-, hpcount, hpblock, hplength⟩ :=
        adjust_internal (Nat.pos_of_ne_zero hzero) (blockSize_adjust_lt hrej) hrest
      obtain ⟨hbytes, haddress, htells'⟩ := (covers_second rfl (adjust_dataBuffer r)
        (adjust_argument r) hprej bytes').1 hsecond
      rw [hpcount, hpblock, Nat.one_mul] at hbytes
      rw [← hbytes, Tells, hpcount, if_neg (by decide), hplength] at htells'
      rw [← hbytes] at hsum
      rw [adjust_length] at hsum hrest htells'
      have hpositive : 0 < r.length % (adjust r).blockSize := Nat.pos_of_ne_zero hrest
      have hwnone : w.toNat = 0 := by
        obtain ⟨hfits, -, htold⟩ := htells'
        split_ifs at htold <;> omega
      rcases blocks_of_total hpos hmax (.inr ⟨hzero, hleft, hsum⟩) with
        ⟨-, hone, hblock⟩ | ⟨hdiv, hcount, hblock⟩
      · rw [hone, hblock, Nat.one_mul] at hleft
        exact absurd hleft (Nat.lt_irrefl _)
      · have hlast := Nat.mod_lt r.length hpos
        rw [Tells, hcount, hblock, adjust_length, hwnone] at htells
        rw [hblock] at htells' hpositive
        rw [hcount, hblock] at haddress hsum
        by_cases htwo : 1 < r.length / r.blockSize
        · rw [if_pos htwo] at htells
          refine ⟨hwzero hwnone, .inr ⟨hpos, (Nat.le_div_iff_mul_le hpos).1 htwo, htells.1,
            htells'.1, .inr ?_⟩⟩
          by_cases hop : (unpack r.argument).opCode = 0
          · exact .inl hop
          · rw [if_neg hop] at haddress
            exact .inr haddress
        · -- one block: the card is told the length of the whole request
          rw [if_neg htwo] at htells
          have hone : r.length / r.blockSize = 1 := by omega
          rw [hone, Nat.one_mul] at htells hsum
          obtain ⟨hfits, -, htold⟩ := htells
          split_ifs at htold <;> omega

/-- **The commands of a CMD53 request cover its bytes** exactly when the driver rejects it, or it
is at most one block, or two and more, of counts and addresses that fit. -/
theorem splitSound_iff (h : IsCmd53 r) (w : UInt8) : SplitSound w r ↔ Rejected r ∨ Splits w r := by
  by_cases hrej : Rejected r
  · refine iff_of_true ?_ (.inl hrej)
    obtain ⟨status, hne, hsend⟩ := sdhcSendCommand_rejected (slotInitialize w) false h hrej
    refine ⟨[], status, ?_, fun hsome => absurd rfl hsome⟩
    rw [cmd53Commands, hsend, Option.bind_some]
    exact if_pos hne
  · rw [or_iff_right hrej]
    exact ⟨SplitSound.splits h hrej, Splits.sound h hrej⟩

end Split

/-! ## Two requests -/

/-- A read of `length` bytes at the address 0x100 of function 1, incrementing. -/
def readRequest (length blockSize : Nat) : SdportRequest where
  type := .commandWithTransfer
  index := sdcmdIoRwExtended
  responseType := .r5
  commandType := .undefined
  transferType := .singleBlock
  transferMethod := .pio
  transferDirection := some .read
  argument := pack ⟨0, 0x100, 1, 0, 1, 0⟩
  length := length
  blockSize := blockSize
  blockCount := 1
  dataBuffer := 0

theorem isCmd53_readRequest (length blockSize : Nat) : IsCmd53 (readRequest length blockSize) :=
  ⟨rfl, rfl, rfl, TransferType.noConfusion, TransferType.noConfusion⟩

/-- Three blocks of 64 bytes and 8 more. -/
theorem splitSound_threeBlocks : SplitSound 0 (readRequest 200 64) :=
  (splitSound_iff (isCmd53_readRequest 200 64) 0).2
    (.inr ⟨rfl, .inr ⟨by decide, by decide, by decide, by decide, .inr (.inr (by decide))⟩⟩)

/-- One block of 64 bytes and 36 more: the card is told 100 bytes, and then 36. -/
theorem block_and_rest :
    IsCmd53 (readRequest 100 64) ∧ ¬ Rejected (readRequest 100 64) ∧
      ¬ SplitSound 0 (readRequest 100 64) := by
  refine ⟨isCmd53_readRequest 100 64, by decide, ?_⟩
  rintro ⟨cs, status, hcommands, hcover⟩
  obtain ⟨first, second, htwo, htold, hprogrammed⟩ :
      ∃ first second, cmd53Commands 0 (readRequest 100 64) = some ([first, second], .pending) ∧
        first.encodedBytes = 100 ∧ first.blockCount * first.blockSize = 64 :=
    ⟨_, _, rfl, rfl, rfl⟩
  rw [htwo] at hcommands
  cases hcommands
  obtain ⟨bytes, hfirst, -⟩ := hcover (List.cons_ne_nil _ _)
  have hbytes := hfirst.encoded.symm.trans htold
  have hbytes' := hfirst.programmed.symm.trans hprogrammed
  omega

end RpiDrivers.Sdhc.Cmd53Split
