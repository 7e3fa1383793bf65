import Mathlib.Data.Nat.Bitwise
import RpiDrivers.Sdhc.Cmd53

/-!
# Sending a command (`bcm2836sdhc.c`)

`SdhcSendCommand` sets up the transfer of a data command, adds `WorkAroundOffset` to the argument
and writes the registers. On the way `SdhcSetTransferMode` adjusts the blocks of the request to its
length, prepares an internal request for what is left over, and rewrites the argument of CMD53.

- `RwExtendedArgument`: the argument of CMD53. `unpack_pack`: its fields read back.
- `sdhcSendCommand`: the request, the driver and the registers after the call.
-/

namespace RpiDrivers.Sdhc.SendCommand

open RpiDrivers.Lib

/-! ## Requests -/

inductive RequestType
  | commandNoTransfer
  | commandWithTransfer
  | startTransfer
  deriving DecidableEq

inductive ResponseType
  | undefined | none | r1 | r1b | r2 | r3 | r4 | r5 | r5b | r6
  deriving DecidableEq

inductive CommandType
  | undefined | suspend | resume | abort
  deriving DecidableEq

inductive TransferType
  | none | undefined | singleBlock | multiBlock | multiBlockNoStop
  deriving DecidableEq

inductive TransferMethod
  | undefined | pio | sgDma
  deriving DecidableEq

/-- `SDPORT_REQUEST` with its `SDPORT_COMMAND`; a direction that is undefined is `none`. -/
structure SdportRequest where
  type : RequestType
  index : Nat
  responseType : ResponseType
  commandType : CommandType
  transferType : TransferType
  transferMethod : TransferMethod
  transferDirection : Option TransferDirection
  argument : Nat
  length : Nat
  blockSize : Nat
  blockCount : Nat
  dataBuffer : Nat

/-- The `NTSTATUS` values of `SdhcSendCommand`. -/
inductive SendStatus
  | pending
  | invalidParameter
  | notSupported
  | notImplemented
  deriving DecidableEq

/-- `SDCMD_IO_RW_EXTENDED` -/
def sdcmdIoRwExtended : Nat := 53

/-! ## The argument of CMD53 -/

/-- `SD_RW_EXTENDED_ARGUMENT` -/
structure RwExtendedArgument where
  /-- 9 bits -/
  count : Nat
  /-- 17 bits -/
  address : Nat
  opCode : Nat
  blockMode : Nat
  /-- 3 bits -/
  function : Nat
  writeToDevice : Nat

namespace RwExtendedArgument

/-- The fields of a `ULONG`. -/
def unpack (argument : Nat) : RwExtendedArgument where
  count := argument % 2 ^ 9
  address := argument / 2 ^ 9 % 2 ^ 17
  opCode := argument / 2 ^ 26 % 2
  blockMode := argument / 2 ^ 27 % 2
  function := argument / 2 ^ 28 % 2 ^ 3
  writeToDevice := argument / 2 ^ 31 % 2

/-- The `ULONG`; what does not fit its field is cut off. -/
def pack (x : RwExtendedArgument) : Nat :=
  x.count % 2 ^ 9 + 2 ^ 9 * (x.address % 2 ^ 17) + 2 ^ 26 * (x.opCode % 2) +
    2 ^ 27 * (x.blockMode % 2) + 2 ^ 28 * (x.function % 2 ^ 3) + 2 ^ 31 * (x.writeToDevice % 2)

/-- What does not fit its field is cut off. -/
def cut (x : RwExtendedArgument) : RwExtendedArgument where
  count := x.count % 2 ^ 9
  address := x.address % 2 ^ 17
  opCode := x.opCode % 2
  blockMode := x.blockMode % 2
  function := x.function % 2 ^ 3
  writeToDevice := x.writeToDevice % 2

/-- **The fields read back**, as far as they fit. -/
theorem unpack_pack (x : RwExtendedArgument) : unpack (pack x) = x.cut := by
  simp only [unpack, pack, cut, RwExtendedArgument.mk.injEq]
  omega

/-- Another address is put into the argument. -/
theorem unpack_pack_address (argument address : Nat) :
    unpack (pack { unpack argument with address := address }) =
      { unpack argument with address := address % 2 ^ 17 } := by
  rw [unpack_pack]
  simp only [unpack, cut, Nat.mod_mod]

theorem pack_lt (x : RwExtendedArgument) : pack x < 2 ^ 32 := by
  unfold pack
  omega

/-- An offset that leaves the address alone is added to the count, and nothing else changes. -/
theorem unpack_add {x : RwExtendedArgument} {w : Nat} (hw : w < 2 ^ 9)
    (h : (unpack ((pack x + w) % 2 ^ 32)).address = x.address % 2 ^ 17) :
    x.count % 2 ^ 9 + w < 2 ^ 9 ∧
      unpack ((pack x + w) % 2 ^ 32) = { x.cut with count := x.count % 2 ^ 9 + w } := by
  simp only [unpack, pack] at h
  have hfits : x.count % 2 ^ 9 + w < 2 ^ 9 := by omega
  refine ⟨hfits, ?_⟩
  simp only [unpack, pack, cut, RwExtendedArgument.mk.injEq]
  omega

end RwExtendedArgument

open RwExtendedArgument

/-! ## The driver -/

/-- The registers that a command is written to. -/
structure Registers where
  /-- `SDHC_SYSADDR` -/
  sysaddr : Nat
  /-- `SDHC_BLOCK_SIZE_COUNT` -/
  blockSizeCount : Nat
  /-- `SDHC_ARGUMENT` -/
  argument : Nat
  /-- `SDHC_TRANSFER_MODE_COMMAND` -/
  transferModeCommand : Nat

/-- `SDHC_EXTENSION` and the global `WorkAroundOffset`. -/
structure Extension where
  workAroundOffset : Nat
  unalignedReqState : UnalignedReqState
  unalignedRequest : SdportRequest
  registers : Registers

/-- `SdhcPrepareInternalRequest`, for a block size that is not zero -/
def sdhcPrepareInternalRequest (request : SdportRequest) : SdportRequest :=
  let x := unpack request.argument
  { request with
    transferType := .singleBlock
    length := request.length % request.blockSize
    blockCount := 1
    blockSize := request.length % request.blockSize % 2 ^ 16
    dataBuffer := request.dataBuffer + request.blockSize * request.blockCount
    argument :=
      if x.opCode ≠ 0 then
        pack { x with address := x.address + request.blockSize * request.blockCount }
      else request.argument }

/-- `SdhcStartNonBlockSizeAlignedRequest`; `none` when it divides by zero -/
def sdhcStartNonBlockSizeAlignedRequest (e : Extension) (internal : Bool)
    (request : SdportRequest) : Option Extension :=
  if request.index ≠ sdcmdIoRwExtended then some { e with unalignedReqState := .idle }
  else if internal then some e
  else if request.blockCount * request.blockSize < request.length then
    if request.blockSize = 0 then none
    else
      some { e with
        unalignedRequest := sdhcPrepareInternalRequest request
        unalignedReqState := .ready }
  else some e

/-- The adjustment of `BlockSize` and `BlockCount` in `SdhcSetTransferMode` -/
def adjust (request : SdportRequest) : SdportRequest :=
  let blockCount := request.length / request.blockSize % 2 ^ 16
  if blockCount = 0 then
    { request with
      blockCount := 1
      blockSize := request.length % 2 ^ 16 }
  else { request with blockCount := blockCount }

section Adjust

variable (request : SdportRequest)

/-- Nothing but the blocks is adjusted. -/
theorem adjust_eq : adjust request =
    { request with
      blockCount := (adjust request).blockCount
      blockSize := (adjust request).blockSize } := by
  rw [adjust]
  split_ifs <;> rfl

@[simp] theorem adjust_index : (adjust request).index = request.index := by rw [adjust_eq]

@[simp] theorem adjust_type : (adjust request).type = request.type := by rw [adjust_eq]

@[simp] theorem adjust_responseType : (adjust request).responseType = request.responseType := by
  rw [adjust_eq]

@[simp] theorem adjust_transferMethod :
    (adjust request).transferMethod = request.transferMethod := by
  rw [adjust_eq]

@[simp] theorem adjust_transferDirection :
    (adjust request).transferDirection = request.transferDirection := by
  rw [adjust_eq]

@[simp] theorem adjust_length : (adjust request).length = request.length := by rw [adjust_eq]

@[simp] theorem adjust_dataBuffer : (adjust request).dataBuffer = request.dataBuffer := by
  rw [adjust_eq]

@[simp] theorem adjust_argument : (adjust request).argument = request.argument := by
  rw [adjust_eq]

end Adjust

/-- The argument that `SdhcSetTransferMode` leaves in a CMD53 request -/
def countArgument (request : SdportRequest) : Nat :=
  let x := unpack request.argument
  if 1 < request.blockCount then pack { x with count := request.blockCount, blockMode := 1 }
  else pack { x with count := request.length, blockMode := 0 }

/-- The bits of `TransferMode` -/
structure TransferMode where
  dmaEnable : Bool := false
  blkcntEnable : Bool := false
  autoCmd12Enable : Bool := false
  autoCmd23Enable : Bool := false
  transferRead : Bool := false
  multiblock : Bool := false

def TransferMode.toNat (m : TransferMode) : Nat :=
  m.dmaEnable.toNat + 2 * m.blkcntEnable.toNat + 4 * m.autoCmd12Enable.toNat +
    8 * m.autoCmd23Enable.toNat + 16 * m.transferRead.toNat + 32 * m.multiblock.toNat

def transferMode (request : SdportRequest) : TransferMode where
  dmaEnable := request.transferMethod = .sgDma
  blkcntEnable := 1 < request.blockCount
  -- CMD53 is aborted through the CCCR
  autoCmd12Enable := 1 < request.blockCount && request.index ≠ sdcmdIoRwExtended
  transferRead := request.transferDirection = some .read
  multiblock := 1 < request.blockCount

/-- `SdhcSetTransferMode`; `none` when it divides by zero -/
def sdhcSetTransferMode (e : Extension) (internal : Bool) (request : SdportRequest) :
    Option (Except SendStatus (Extension × SdportRequest × TransferMode)) :=
  if 2048 < request.blockSize || request.transferDirection = none then
    some (.error .invalidParameter)
  else if request.blockSize = 0 then none
  else
    let request := adjust request
    (sdhcStartNonBlockSizeAlignedRequest e internal request).map fun e =>
      let sent :=
        if request.index = sdcmdIoRwExtended then
          { request with argument := countArgument request }
        else request
      .ok ({ e with
        registers := { e.registers with
          sysaddr := sent.blockCount
          blockSizeCount := sent.blockCount <<< 16 ||| sent.blockSize } },
        sent, transferMode sent)

/-- `SdhcBuildTransfer` -/
def sdhcBuildTransfer (e : Extension) (internal : Bool) (request : SdportRequest) :
    Option (Except SendStatus (Extension × SdportRequest × TransferMode)) :=
  match request.transferMethod with
  | .pio => sdhcSetTransferMode e internal request
  -- `SdhcBuildAdmaTransfer`
  | .sgDma => some (.error .notImplemented)
  | .undefined => some (.error .notSupported)

/-- The response bits of `CommandReg` -/
def responseBits : ResponseType → Option Nat
  | .none => some 0
  | .r1 | .r5 | .r6 => some 0x1A0000
  | .r1b | .r5b => some 0x1B0000
  | .r2 => some 0x090000
  | .r3 | .r4 => some 0x020000
  | .undefined => none

def commandTypeBits : CommandType → Nat
  | .suspend => 0x400000
  | .resume => 0x800000
  | .abort => 0x600000
  | .undefined => 0

/-- The part of `SdhcSendCommand` after the transfer has been set up -/
def writeCommand (e : Extension) (request : SdportRequest) (mode : Nat) :
    Extension × SdportRequest × SendStatus :=
  let request :=
    if request.type = .commandWithTransfer then
      { request with argument := (request.argument + e.workAroundOffset) % 2 ^ 32 }
    else request
  let e := { e with registers := { e.registers with argument := request.argument } }
  match responseBits request.responseType with
  | none => (e, request, .invalidParameter)
  | some response =>
    let dataPresent := if request.transferType ≠ .none then 0x200000 else 0
    -- a command without data keeps the mode bits, but for DMA and the automatic commands
    let mode :=
      if request.transferType ≠ .none then mode
      else e.registers.transferModeCommand % 2 ^ 16 &&& 0xFFF2
    let command := request.index <<< 24 ||| response ||| dataPresent |||
      commandTypeBits request.commandType ||| mode
    ({ e with registers := { e.registers with transferModeCommand := command } }, request, .pending)

/-- `SdhcSendCommand`; `none` when it divides by zero -/
def sdhcSendCommand (e : Extension) (internal : Bool) (request : SdportRequest) :
    Option (Extension × SdportRequest × SendStatus) :=
  if request.transferType ≠ .none ∧ request.transferType ≠ .undefined then
    (sdhcBuildTransfer e internal request).map fun
      | .error status => (e, request, status)
      | .ok (e, request, mode) => writeCommand e request mode.toNat
  else some (writeCommand e request 0)

end RpiDrivers.Sdhc.SendCommand
