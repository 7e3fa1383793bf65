import RpiDrivers.Spi0.Sequence

/-!
# The bytes of an SPI0 transfer in poll mode (`controller.cpp`)

`ControllerDoOneTransferPollMode` puts the write buffer into the TX FIFO, and zeros behind it when
more bytes are to be read. From the RX FIFO it fills the read buffer and discards what comes after
that. The two halves of a round do not wait for each other. When the loop ends, or the request is
cancelled, `ControllerFlushFifos` waits until the TX FIFO is sent, and the information is set.

- `payload`, `received`: what is to be clocked out, and what the RX FIFO offers before a
  cancellation.
- `PollSound`: the bytes that are clocked out, those that are stored, and the information.
- `pollSound`: **every transfer is sound, for every schedule of the FIFOs, and ends when it is
  cancelled or the FIFOs have been ready often enough**.
- `buffer_not_mapped`: a transfer ends early when a byte of its chain cannot be accessed.
-/

namespace RpiDrivers.Spi0

/-! ## How a request is set up -/

/-- `PbcRequestSetNthTransferInfo` for a request of type other. -/
def pbcRequestSetNthTransferInfoOther (r : PbcRequest) (d : Descriptor) : PbcRequest :=
  { r with
    currentTransferInformation := 0
    currentTransferDirection := d.direction
    currentTransferDelayInUs := d.delayInUs
    currentTransferReadLength :=
      if d.direction = .fromDevice then d.transferLength else r.currentTransferReadLength
    currentTransferWriteLength :=
      if d.direction = .toDevice then d.transferLength else r.currentTransferWriteLength
    pCurrentTransferReadMdlChain :=
      if d.direction = .fromDevice then d.mdl else r.pCurrentTransferReadMdlChain
    pCurrentTransferWriteMdlChain :=
      if d.direction = .toDevice then d.mdl else r.pCurrentTransferWriteMdlChain }

/-- `OnSequenceRequest` for a full-duplex request: its second transfer, then its first one. -/
def onFullDuplexRequest (r : PbcRequest) (first second : Descriptor) : Except NtStatus PbcRequest :=
  let r := pbcRequestSetNthTransferInfoOther { r with transferCount := 1 } second
  if r.currentTransferDirection ≠ .fromDevice then .error .invalidParameter
  else if 0 < r.currentTransferDelayInUs then .error .invalidParameter
  else
    let r := pbcRequestSetNthTransferInfoOther r first
    if r.currentTransferDirection ≠ .toDevice then .error .invalidParameter
    else if 0 < r.currentTransferDelayInUs then .error .invalidParameter
    else .ok { r with currentTransferDirection := .none }

/-- A request that is ready for `ControllerDoOneTransferPollMode`. -/
inductive SetUp : PbcRequest → Prop
  | sequence (r : PbcRequest) (transferIndex : Nat) (d : Descriptor) :
    SetUp (pbcRequestSetNthTransferInfo r transferIndex d)
  | fullDuplex {r r' : PbcRequest} {first second : Descriptor}
    (h : onFullDuplexRequest r first second = .ok r') : SetUp r'

/-! ## The property -/

/-- The bytes of a chain. -/
def mdlBytes (mdl : List Mdl) : List UInt8 := mdl.flatMap Mdl.bytes

/-- The first bytes of a chain can be accessed. -/
def Accessible (mdl : List Mdl) (length : Nat) : Prop :=
  ∀ i < length, ∃ byte, mdlFindByte mdl i = .ok byte

namespace PbcRequest

variable (r : PbcRequest)

def transferByteLength : Nat := max r.currentTransferWriteLength r.currentTransferReadLength

/-- The write buffer, and zeros. -/
def payload : List UInt8 :=
  (mdlBytes r.pCurrentTransferWriteMdlChain).take r.currentTransferWriteLength ++
    List.replicate (r.transferByteLength - r.currentTransferWriteLength) 0

end PbcRequest

/-- The rounds before a cancellation. -/
def rounds (polls : List Poll) : List Poll := polls.takeWhile fun p => !p.canceled

/-- In how many rounds the TX FIFO has room. -/
def txdRounds (polls : List Poll) : Nat := polls.countP Poll.txd

/-- The bytes that the RX FIFO offers. -/
def received (polls : List Poll) : List UInt8 := (polls.filter Poll.rxd).map Poll.fifo

/-- What a transfer returns: the status, the request and the bytes written to the FIFO. -/
abbrev PollOutcome : Type := NtStatus × PbcRequest × List UInt8

/-- `sent` bytes are clocked out and `got` bytes are taken from the RX FIFO. -/
structure Clocked (r : PbcRequest) (polls : List Poll) (sent got : Nat) (x : PollOutcome) :
    Prop where
  sent_le : sent ≤ r.transferByteLength
  got_le : got ≤ r.transferByteLength
  offered : got ≤ (received polls).length
  length : x.2.2.length = sent
  /-- the write buffer, then zeros -/
  written : x.2.2 = r.payload.take sent
  /-- the read buffer, in order, and no more -/
  stored : mdlBytes x.2.1.pCurrentTransferReadMdlChain =
    (received polls).take (min got r.currentTransferReadLength) ++
      (mdlBytes r.pCurrentTransferReadMdlChain).drop (min got r.currentTransferReadLength)

/-- **The property.** -/
structure Transferred (r : PbcRequest) (polls : List Poll) (sent got : Nat) (x : PollOutcome) :
    Prop extends Clocked r (rounds polls) sent got x where
  success : x.1 = .success → sent = r.transferByteLength ∧ got = r.transferByteLength
  cancelled : x.1 = .cancelled → sent = min r.transferByteLength (txdRounds (rounds polls)) ∧
    got = min r.transferByteLength (received (rounds polls)).length
  information : x.1 = .success ∨ x.1 = .cancelled → x.2.1.currentTransferInformation =
    min sent r.currentTransferWriteLength + min got r.currentTransferReadLength
  accessible : Accessible r.pCurrentTransferWriteMdlChain r.currentTransferWriteLength →
    Accessible r.pCurrentTransferReadMdlChain r.currentTransferReadLength →
      x.1 = .success ∨ x.1 = .cancelled ∨ x.1 = .delayFailed

def PollSound (r : PbcRequest) (polls : List Poll) (x : PollOutcome) : Prop :=
  ∃ sent got, Transferred r polls sent got x

/-- The transfer is cancelled, or the FIFOs are ready for all of its bytes. -/
def LongEnough (r : PbcRequest) (polls : List Poll) : Prop :=
  (∃ p ∈ polls, p.canceled = true) ∨
    r.transferByteLength ≤ txdRounds polls ∧ r.transferByteLength ≤ (received polls).length

/-- What the transfer is held to, with every chain: it clocks all bytes unless it is cancelled, and
the information is that of the bytes. -/
def AllClocked (r : PbcRequest) (polls : List Poll) (x : PollOutcome) : Prop :=
  ∃ sent got, Clocked r (rounds polls) sent got x ∧
    (x.1 ≠ .cancelled → sent = r.transferByteLength ∧ got = r.transferByteLength) ∧
    x.2.1.currentTransferInformation =
      min sent r.currentTransferWriteLength + min got r.currentTransferReadLength

/-! ## Chains -/

section Chain

variable {mdl mdl' : List Mdl} {i : Nat} {byte : UInt8}

theorem mdlBytes_cons (m : Mdl) (mdl : List Mdl) : mdlBytes (m :: mdl) = m.bytes ++ mdlBytes mdl :=
  List.flatMap_cons

/-- The byte that is found. -/
theorem getElem?_of_find : ∀ {mdl : List Mdl} {i : Nat}, mdlFindByte mdl i = .ok byte →
    (mdlBytes mdl)[i]? = some byte
  | [], _, h => by cases h
  | m :: rest, i, h => by
    rw [mdlFindByte] at h
    rw [mdlBytes_cons]
    cases hbyte : m.bytes[i]? with
    | some b =>
      rw [hbyte] at h
      dsimp only at h
      split at h
      · obtain rfl : b = byte := Except.ok.inj h
        rw [List.getElem?_append_left (List.getElem?_eq_some_iff.1 hbyte).1, hbyte]
      · cases h
    | none =>
      rw [hbyte] at h
      rw [List.getElem?_append_right (List.getElem?_eq_none_iff.1 hbyte)]
      exact getElem?_of_find h

/-- The lengths of the MDLs, and which of them are mapped. -/
def chainShape (mdl : List Mdl) : List (Nat × Bool) := mdl.map fun m => (m.bytes.length, m.mapped)

/-- What a byte is stored in. -/
theorem store_spec : ∀ {mdl mdl' : List Mdl} {i : Nat}, mdlStoreByte byte mdl i = .ok mdl' →
    i < (mdlBytes mdl).length ∧ mdlBytes mdl' = (mdlBytes mdl).set i byte ∧
      chainShape mdl' = chainShape mdl
  | [], _, _, h => by cases h
  | m :: rest, mdl', i, h => by
    rw [mdlStoreByte] at h
    split at h
    · next hlt =>
      split at h
      · obtain rfl := Except.ok.inj h
        rw [mdlBytes_cons, mdlBytes_cons, List.set_append_left _ _ hlt, List.length_append]
        refine ⟨by omega, rfl, ?_⟩
        simp [chainShape]
      · cases h
    · next hge =>
      cases hrest : mdlStoreByte byte rest (i - m.bytes.length) with
      | error e => rw [hrest] at h; cases h
      | ok rest' =>
        rw [hrest] at h
        obtain rfl : m :: rest' = mdl' := Except.ok.inj h
        obtain ⟨hlt, hbytes, hshape⟩ := store_spec hrest
        rw [mdlBytes_cons, mdlBytes_cons, hbytes, List.length_append,
          List.set_append_right _ _ (Nat.le_of_not_lt hge)]
        exact ⟨by omega, rfl, congrArg ((m.bytes.length, m.mapped) :: ·) hshape⟩

/-- A byte that can be accessed can be stored, in a chain of the same shape. -/
theorem store_of_find : ∀ {mdl mdl' : List Mdl} {i : Nat}, chainShape mdl' = chainShape mdl →
    (∃ b, mdlFindByte mdl i = .ok b) → ∃ stored, mdlStoreByte byte mdl' i = .ok stored
  | [], _, _, _, ⟨_, h⟩ => by cases h
  | m :: rest, [], _, hshape, _ => by cases hshape
  | m :: rest, m' :: rest', i, hshape, ⟨b, h⟩ => by
    obtain ⟨hm, hrest⟩ := List.cons.inj hshape
    obtain ⟨hlength, hmapped⟩ := Prod.mk.inj hm
    rw [mdlFindByte] at h
    rw [mdlStoreByte, hlength, hmapped]
    cases hbyte : m.bytes[i]? with
    | some b' =>
      rw [hbyte] at h
      rw [if_pos (List.getElem?_eq_some_iff.1 hbyte).1]
      dsimp only at h
      split at h
      · next hm => exact ⟨_, if_pos hm⟩
      · cases h
    | none =>
      rw [hbyte] at h
      rw [if_neg (Nat.not_lt.2 (List.getElem?_eq_none_iff.1 hbyte))]
      obtain ⟨stored, hstored⟩ := store_of_find hrest ⟨b, h⟩
      rw [hstored]
      exact ⟨m' :: stored, rfl⟩

end Chain

/-! ## The loop -/

/-- A transfer in one direction has no length in the other one. -/
theorem SetUp.lengths {r : PbcRequest} (h : SetUp r) :
    (r.currentTransferDirection = .fromDevice → r.currentTransferWriteLength = 0) ∧
      (r.currentTransferDirection = .toDevice → r.currentTransferReadLength = 0) := by
  cases h with
  | sequence r i d =>
    refine ⟨fun hdir => if_neg ?_, fun hdir => if_neg ?_⟩
    · rw [show d.direction = .fromDevice from hdir]
      decide
    · rw [show d.direction = .toDevice from hdir]
      decide
  | fullDuplex h =>
    unfold onFullDuplexRequest at h
    dsimp only at h
    split_ifs at h
    obtain rfl := Except.ok.inj h
    constructor
    · intro hdir
      cases hdir
    · intro hdir
      cases hdir

/-- In the loop, or where it has been left: `sent` bytes are written and `got` bytes are read. -/
structure InLoop (r : PbcRequest) (offers : List UInt8) (sent got : Nat) (st : PollState) :
    Prop where
  sent_le : sent ≤ r.transferByteLength
  got_le : got ≤ r.transferByteLength
  offered : got ≤ offers.length
  bytesToWrite : st.bytesToWrite = r.currentTransferWriteLength - sent
  zeroBytesToWrite : st.zeroBytesToWrite =
    r.transferByteLength - max sent r.currentTransferWriteLength
  bytesToRead : st.bytesToRead = r.currentTransferReadLength - got
  readBytesToDiscard : st.readBytesToDiscard =
    r.transferByteLength - max got r.currentTransferReadLength
  writeByteIndex : st.writeByteIndex = min sent r.currentTransferWriteLength
  readByteIndex : st.readByteIndex = min got r.currentTransferReadLength
  /-- the bytes that were found -/
  covered : min sent r.currentTransferWriteLength ≤
    (mdlBytes r.pCurrentTransferWriteMdlChain).length
  written : st.written = r.payload.take sent
  shape : chainShape st.readMdl = chainShape r.pCurrentTransferReadMdlChain
  stored : mdlBytes st.readMdl = offers.take (min got r.currentTransferReadLength) ++
    (mdlBytes r.pCurrentTransferReadMdlChain).drop (min got r.currentTransferReadLength)

namespace InLoop

variable {r : PbcRequest} {offers : List UInt8} {sent got : Nat} {st st' : PollState} {fifo : UInt8}

theorem start (h : SetUp r) : InLoop r [] 0 0 (pollInit r) := by
  obtain ⟨hwrite, hread⟩ := h.lengths
  have hbytesToWrite : (if r.currentTransferDirection = .fromDevice then 0
      else r.currentTransferWriteLength) = r.currentTransferWriteLength := by
    split_ifs with hdir
    · exact (hwrite hdir).symm
    · rfl
  have hbytesToRead : (if r.currentTransferDirection = .toDevice then 0
      else r.currentTransferReadLength) = r.currentTransferReadLength := by
    split_ifs with hdir
    · exact (hread hdir).symm
    · rfl
  rw [pollInit, hbytesToWrite, hbytesToRead]
  constructor
  case sent_le => exact Nat.zero_le _
  case got_le => exact Nat.zero_le _
  case offered => exact Nat.le_refl 0
  case bytesToWrite => rfl
  case zeroBytesToWrite => rw [Nat.zero_max]; rfl
  case bytesToRead => rfl
  case readBytesToDiscard => rw [Nat.zero_max]; rfl
  case writeByteIndex => exact (Nat.zero_min _).symm
  case readByteIndex => exact (Nat.zero_min _).symm
  case covered => rw [Nat.zero_min]; exact Nat.zero_le _
  case written => rfl
  case shape => rfl
  case stored => rw [Nat.zero_min]; rfl

/-- More is offered. -/
theorem offer (h : InLoop r offers sent got st) (more : List UInt8) :
    InLoop r (offers ++ more) sent got st := by
  refine { h with offered := ?_, stored := ?_ }
  · rw [List.length_append]
    exact Nat.le_add_right_of_le h.offered
  · rw [List.take_append_of_le_length (Nat.le_trans (Nat.min_le_left _ _) h.offered)]
    exact h.stored

/-- The byte behind those that are written. -/
theorem payload_get (h : InLoop r offers sent got st) (byte : UInt8)
    (hbyte : sent < r.currentTransferWriteLength →
      (mdlBytes r.pCurrentTransferWriteMdlChain)[sent]? = some byte)
    (hzero : r.currentTransferWriteLength ≤ sent → byte = 0) (hlt : sent < r.transferByteLength) :
    r.payload[sent]? = some byte := by
  have hcovered := h.covered
  rw [PbcRequest.payload]
  rcases Nat.lt_or_ge sent r.currentTransferWriteLength with hw | hw
  · obtain ⟨hlength, -⟩ := List.getElem?_eq_some_iff.1 (hbyte hw)
    rw [List.getElem?_append_left (by rw [List.length_take]; omega), List.getElem?_take_of_lt hw,
      hbyte hw]
  · rw [Nat.min_eq_right hw] at hcovered
    rw [List.getElem?_append_right (by rw [List.length_take]; omega), List.length_take,
      Nat.min_eq_left hcovered, List.getElem?_replicate_of_lt (by omega), hzero hw]

/-- One more byte is written, by the buffer or by zeros. -/
theorem written_succ (h : InLoop r offers sent got st) {byte : UInt8}
    (hget : r.payload[sent]? = some byte) :
    st.written ++ [byte] = r.payload.take (sent + 1) := by
  rw [h.written, List.take_add_one, hget]
  rfl

/-- The `TXD` half of a round. -/
theorem write_ok (h : InLoop r offers sent got st) (hround : pollWrite r st = .ok st') :
    InLoop r offers (min r.transferByteLength (sent + 1)) got st' := by
  have hbytesToWrite := h.bytesToWrite
  have hzero := h.zeroBytesToWrite
  have hindex := h.writeByteIndex
  have hsent := h.sent_le
  have hlength : r.currentTransferWriteLength ≤ r.transferByteLength := Nat.le_max_left ..
  -- a byte of the buffer, a zero after its end, or nothing
  rw [pollWrite] at hround
  split at hround
  · next hmore =>
    have hlt : sent < r.currentTransferWriteLength := by omega
    rw [Nat.min_eq_left (Nat.le_of_lt hlt)] at hindex
    rw [hindex, mdlGetByte, if_pos hlt] at hround
    cases hfind : mdlFindByte r.pCurrentTransferWriteMdlChain sent with
    | error e => rw [hfind] at hround; cases hround
    | ok byte =>
      rw [hfind] at hround
      obtain rfl := Except.ok.inj hround
      have hbyte := getElem?_of_find hfind
      have hget := h.payload_get byte (fun _ => hbyte) (fun hle => absurd hlt (Nat.not_lt.2 hle))
        (by omega)
      rw [Nat.min_eq_right (show sent + 1 ≤ r.transferByteLength by omega)]
      exact { h with
        sent_le := by omega
        bytesToWrite := by show st.bytesToWrite - 1 = _; omega
        zeroBytesToWrite := by show st.zeroBytesToWrite = _; omega
        writeByteIndex := by show sent + 1 = _; omega
        covered := Nat.le_trans (Nat.min_le_left _ _) (List.getElem?_eq_some_iff.1 hbyte).1
        written := h.written_succ hget }
  · next hdone =>
    have hle : r.currentTransferWriteLength ≤ sent := by omega
    rw [Nat.max_eq_left hle] at hzero
    split at hround
    · next hmore =>
      obtain rfl := Except.ok.inj hround
      have hget := h.payload_get 0 (fun hlt => absurd hlt (Nat.not_lt.2 hle))
        (fun _ => rfl) (by omega)
      have hcovered := h.covered
      rw [Nat.min_eq_right (show sent + 1 ≤ r.transferByteLength by omega)]
      exact { h with
        sent_le := by omega
        bytesToWrite := by show st.bytesToWrite = _; omega
        zeroBytesToWrite := by show st.zeroBytesToWrite - 1 = _; omega
        writeByteIndex := by show st.writeByteIndex = _; omega
        covered := by omega
        written := h.written_succ hget }
    · next hnone =>
      obtain rfl := Except.ok.inj hround
      rw [show min r.transferByteLength (sent + 1) = sent by omega]
      exact h

theorem write_error (h : InLoop r offers sent got st) (hround : pollWrite r st = .error st') :
    st' = st ∧ ¬ Accessible r.pCurrentTransferWriteMdlChain r.currentTransferWriteLength := by
  have hbytesToWrite := h.bytesToWrite
  have hindex := h.writeByteIndex
  rw [pollWrite] at hround
  split at hround
  · next hmore =>
    have hlt : sent < r.currentTransferWriteLength := by omega
    rw [Nat.min_eq_left (Nat.le_of_lt hlt)] at hindex
    rw [hindex, mdlGetByte, if_pos hlt] at hround
    cases hfind : mdlFindByte r.pCurrentTransferWriteMdlChain sent with
    | ok byte => rw [hfind] at hround; cases hround
    | error e =>
      rw [hfind] at hround
      refine ⟨(Except.error.inj hround).symm, fun haccessible => ?_⟩
      obtain ⟨byte, hbyte⟩ := haccessible sent hlt
      cases hfind.symm.trans hbyte
  · split at hround <;> cases hround

/-- The `RXD` half of a round. -/
theorem read_ok (h : InLoop r offers sent got st)
    (hgot : got = min r.transferByteLength offers.length) (hround : pollRead r fifo st = .ok st') :
    InLoop r (offers ++ [fifo]) sent (min r.transferByteLength (offers ++ [fifo]).length) st' := by
  have hbytesToRead := h.bytesToRead
  have hdiscard := h.readBytesToDiscard
  have hindex := h.readByteIndex
  have hstored := h.stored
  have hlength : r.currentTransferReadLength ≤ r.transferByteLength := Nat.le_max_right ..
  rw [List.length_append, List.length_singleton]
  rw [pollRead] at hround
  split at hround
  · next hmore =>
    have hlt : got < r.currentTransferReadLength := by omega
    have hoffers : offers.length = got := by omega
    rw [Nat.min_eq_left (Nat.le_of_lt hlt)] at hindex hstored
    rw [hindex, mdlSetByte, if_pos hlt] at hround
    cases hstore : mdlStoreByte fifo st.readMdl got with
    | error e => rw [hstore] at hround; cases hround
    | ok readMdl =>
      rw [hstore] at hround
      obtain rfl := Except.ok.inj hround
      obtain ⟨hget, hbytes, hshape⟩ := store_spec hstore
      rw [hoffers, Nat.min_eq_right (show got + 1 ≤ r.transferByteLength by omega)]
      refine { h with
        got_le := by omega
        offered := by rw [List.length_append, hoffers, List.length_singleton]
        bytesToRead := by show st.bytesToRead - 1 = _; omega
        readBytesToDiscard := by show st.readBytesToDiscard = _; omega
        readByteIndex := by show got + 1 = _; omega
        shape := hshape.trans h.shape
        stored := ?_ }
      -- the byte goes behind those that are stored
      rw [← hoffers, List.take_length] at hstored
      rw [Nat.min_eq_left (show got + 1 ≤ r.currentTransferReadLength by omega), ← hoffers,
        List.take_of_length_le (by rw [List.length_append, List.length_singleton])]
      rw [hstored, List.length_append, List.length_drop] at hget
      show mdlBytes readMdl = _
      rw [hbytes, hstored, ← hoffers, List.set_append_right _ _ (Nat.le_refl _), Nat.sub_self,
        List.append_assoc, List.drop_eq_getElem_cons (by omega)]
      rfl
  · next hdone =>
    have hle : r.currentTransferReadLength ≤ got := by omega
    rw [Nat.max_eq_left hle] at hdiscard
    have hmin : ∀ n, got ≤ n → min n r.currentTransferReadLength =
        min got r.currentTransferReadLength := fun n hn => by omega
    split at hround
    · next hmore =>
      obtain rfl := Except.ok.inj hround
      have hoffers : offers.length = got := by omega
      have hoffer := h.offer [fifo]
      rw [hoffers, Nat.min_eq_right (show got + 1 ≤ r.transferByteLength by omega)]
      exact { hoffer with
        got_le := by omega
        offered := by rw [List.length_append, hoffers, List.length_singleton]
        bytesToRead := by show st.bytesToRead = _; omega
        readBytesToDiscard := by show st.readBytesToDiscard - 1 = _; omega
        readByteIndex := by rw [hmin _ (Nat.le_succ got)]; exact h.readByteIndex
        stored := by rw [hmin _ (Nat.le_succ got)]; exact hoffer.stored }
    · next hnone =>
      obtain rfl := Except.ok.inj hround
      rw [show min r.transferByteLength (offers.length + 1) = got by omega]
      exact h.offer [fifo]

theorem read_error (h : InLoop r offers sent got st) (hround : pollRead r fifo st = .error st') :
    st' = st ∧ ¬ Accessible r.pCurrentTransferReadMdlChain r.currentTransferReadLength := by
  have hbytesToRead := h.bytesToRead
  have hindex := h.readByteIndex
  rw [pollRead] at hround
  split at hround
  · next hmore =>
    have hlt : got < r.currentTransferReadLength := by omega
    rw [Nat.min_eq_left (Nat.le_of_lt hlt)] at hindex
    rw [hindex, mdlSetByte, if_pos hlt] at hround
    cases hstore : mdlStoreByte fifo st.readMdl got with
    | ok readMdl => rw [hstore] at hround; cases hround
    | error e =>
      rw [hstore] at hround
      refine ⟨(Except.error.inj hround).symm, fun haccessible => ?_⟩
      obtain ⟨stored, hstored⟩ : ∃ stored, mdlStoreByte fifo st.readMdl got = .ok stored :=
        store_of_find h.shape (haccessible got hlt)
      cases hstore.symm.trans hstored
  · split at hround <;> cases hround

/-- The test of the loop. -/
theorem done_iff (h : InLoop r offers sent got st) :
    st.done = true ↔ sent = r.transferByteLength ∧ got = r.transferByteLength := by
  have hsent := h.sent_le
  have hgot := h.got_le
  have hwrite : r.currentTransferWriteLength ≤ r.transferByteLength := Nat.le_max_left ..
  have hread : r.currentTransferReadLength ≤ r.transferByteLength := Nat.le_max_right ..
  simp only [PollState.done, h.bytesToWrite, h.zeroBytesToWrite, h.bytesToRead,
    h.readBytesToDiscard, Bool.and_eq_true, beq_iff_eq]
  omega

end InLoop

/-- At the head of the loop, after the rounds `seen`. -/
abbrev AtRound (r : PbcRequest) (seen : List Poll) (st : PollState) : Prop :=
  InLoop r (received seen) (min r.transferByteLength (txdRounds seen))
    (min r.transferByteLength (received seen).length) st

/-- How the loop leaves the transfer, after the rounds `seen`. -/
def LeavesAt (r : PbcRequest) (seen : List Poll) : PollResult → Prop
  | .finished st => InLoop r (received seen) r.transferByteLength r.transferByteLength st
  | .canceled st => AtRound r seen st
  | .failed st => (∃ sent got, InLoop r (received seen) sent got st) ∧
    ¬ (Accessible r.pCurrentTransferWriteMdlChain r.currentTransferWriteLength ∧
      Accessible r.pCurrentTransferReadMdlChain r.currentTransferReadLength)

theorem received_append (polls polls' : List Poll) :
    received (polls ++ polls') = received polls ++ received polls' := by
  rw [received, List.filter_append, List.map_append]
  rfl

theorem txdRounds_append (polls polls' : List Poll) :
    txdRounds (polls ++ polls') = txdRounds polls + txdRounds polls' :=
  List.countP_append

section Rounds

variable {r : PbcRequest} {p : Poll} {seen : List Poll} {st st' : PollState}

/-- The first half of a round. -/
theorem txdHalf_ok (h : AtRound r seen st)
    (hhalf : (if p.txd then pollWrite r st else .ok st) = .ok st') :
    InLoop r (received seen) (min r.transferByteLength (txdRounds (seen ++ [p])))
      (min r.transferByteLength (received seen).length) st' := by
  rw [txdRounds_append]
  cases htxd : p.txd with
  | true =>
    rw [htxd, if_pos rfl] at hhalf
    have hnext := h.write_ok hhalf
    rw [show txdRounds [p] = 1 by simp [txdRounds, htxd]]
    rwa [show min r.transferByteLength (min r.transferByteLength (txdRounds seen) + 1) =
      min r.transferByteLength (txdRounds seen + 1) by omega] at hnext
  | false =>
    rw [htxd, if_neg (by decide)] at hhalf
    obtain rfl := Except.ok.inj hhalf
    rw [show txdRounds [p] = 0 by simp [txdRounds, htxd]]
    exact h

/-- One round: the two halves go on, each by its own bit. -/
theorem pollOnce_ok (h : AtRound r seen st) (hround : pollOnce r p st = .ok st') :
    AtRound r (seen ++ [p]) st' := by
  rw [pollOnce] at hround
  cases hhalf : (if p.txd then pollWrite r st else .ok st : Except PollState PollState) with
  | error e => rw [hhalf] at hround; cases hround
  | ok st₁ =>
    rw [hhalf] at hround
    dsimp only at hround
    have hnext := txdHalf_ok h hhalf
    rw [AtRound, received_append]
    cases hrxd : p.rxd with
    | true =>
      rw [hrxd, if_pos rfl] at hround
      rw [show received [p] = [p.fifo] by simp [received, hrxd]]
      exact hnext.read_ok rfl hround
    | false =>
      rw [hrxd, if_neg (by decide)] at hround
      obtain rfl := Except.ok.inj hround
      rw [show received [p] = [] by simp [received, hrxd], List.append_nil]
      exact hnext

/-- A round that fails leaves the bytes as they are. -/
theorem pollOnce_error (h : AtRound r seen st) (hround : pollOnce r p st = .error st') :
    LeavesAt r (seen ++ [p]) (.failed st') := by
  rw [pollOnce] at hround
  cases hhalf : (if p.txd then pollWrite r st else .ok st : Except PollState PollState) with
  | error st₁ =>
    rw [hhalf] at hround
    obtain rfl := Except.error.inj hround
    split at hhalf
    · obtain ⟨rfl, hnot⟩ := h.write_error hhalf
      exact ⟨⟨_, _, received_append seen [p] ▸ h.offer _⟩, fun haccessible => hnot haccessible.1⟩
    · cases hhalf
  | ok st₁ =>
    rw [hhalf] at hround
    dsimp only at hround
    have hnext := txdHalf_ok h hhalf
    split at hround
    · obtain ⟨rfl, hnot⟩ := hnext.read_error hround
      exact ⟨⟨_, _, received_append seen [p] ▸ hnext.offer _⟩,
        fun haccessible => hnot haccessible.2⟩
    · cases hround

/-- What has been seen further on changes nothing. -/
theorem LeavesAt.finished_append {st : PollState} (h : LeavesAt r seen (.finished st))
    (rest : List Poll) : LeavesAt r (seen ++ rest) (.finished st) := by
  rw [LeavesAt, received_append]
  exact InLoop.offer h _

theorem rounds_cons (h : p.canceled = false) (polls : List Poll) :
    rounds (p :: polls) = p :: rounds polls := by
  simp [rounds, h]

theorem rounds_cons_canceled (h : p.canceled = true) (polls : List Poll) :
    rounds (p :: polls) = [] := by
  simp [rounds, h]

/-- **What the loop leaves**, from any round on: the induction is on the rounds to come. -/
theorem pollLoop_leavesAt : ∀ {polls seen : List Poll} {st : PollState} {result : PollResult},
    AtRound r seen st → pollLoop r polls st = some result → LeavesAt r (seen ++ rounds polls) result
  | [], seen, st, result, h, hloop => by
    rw [pollLoop] at hloop
    split at hloop
    · next hdone =>
      obtain rfl := Option.some.inj hloop
      obtain ⟨hsent, hgot⟩ := h.done_iff.1 hdone
      rw [AtRound, hsent, hgot] at h
      exact LeavesAt.finished_append h _
    · cases hloop
  | p :: polls, seen, st, result, h, hloop => by
    rw [pollLoop] at hloop
    split at hloop
    · next hdone =>
      obtain rfl := Option.some.inj hloop
      obtain ⟨hsent, hgot⟩ := h.done_iff.1 hdone
      rw [AtRound, hsent, hgot] at h
      exact LeavesAt.finished_append h _
    · split at hloop
      · next hcanceled =>
        obtain rfl := Option.some.inj hloop
        rw [rounds_cons_canceled hcanceled, List.append_nil]
        exact h
      · next hcanceled =>
        rw [rounds_cons (Bool.eq_false_iff.2 hcanceled), List.append_cons]
        cases hround : pollOnce r p st with
        | ok st' =>
          rw [hround] at hloop
          exact pollLoop_leavesAt (pollOnce_ok h hround) hloop
        | error st' =>
          rw [hround] at hloop
          obtain rfl := Option.some.inj hloop
          obtain ⟨⟨sent, got, hleft⟩, hnot⟩ := pollOnce_error h hround
          exact ⟨⟨sent, got, received_append (seen ++ [p]) _ ▸ hleft.offer _⟩, hnot⟩

/-- The loop ends when it is cancelled, or the FIFOs have been ready for all bytes. -/
theorem pollLoop_isSome : ∀ {polls seen : List Poll} {st : PollState}, AtRound r seen st →
    ((∃ p ∈ polls, p.canceled = true) ∨ r.transferByteLength ≤ txdRounds (seen ++ polls) ∧
      r.transferByteLength ≤ (received (seen ++ polls)).length) →
    (pollLoop r polls st).isSome = true
  | [], seen, st, h, hlong => by
    rcases hlong with ⟨p, hmem, -⟩ | ⟨htxd, hrxd⟩
    · exact absurd hmem List.not_mem_nil
    · rw [List.append_nil] at htxd hrxd
      have hdone : st.done = true :=
        h.done_iff.2 ⟨Nat.min_eq_left htxd, Nat.min_eq_left hrxd⟩
      rw [pollLoop, if_pos hdone]
      rfl
  | p :: polls, seen, st, h, hlong => by
    rw [pollLoop]
    split
    · rfl
    · split
      · rfl
      · next hcanceled =>
        cases hround : pollOnce r p st with
        | error st' => rfl
        | ok st' =>
          refine pollLoop_isSome (pollOnce_ok h hround) ?_
          rw [List.append_assoc]
          rcases hlong with ⟨q, hmem, hq⟩ | hready
          · rcases List.mem_cons.1 hmem with rfl | hmem
            · exact absurd hq hcanceled
            · exact .inl ⟨q, hmem, hq⟩
          · exact .inr hready

end Rounds

/-! ## The transfer -/

theorem InLoop.length_written {r : PbcRequest} {offers : List UInt8} {sent got : Nat}
    {st : PollState} (h : InLoop r offers sent got st) : st.written.length = sent := by
  have hcovered := h.covered
  have hsent := h.sent_le
  rw [h.written, List.length_take, PbcRequest.payload, List.length_append, List.length_take,
    List.length_replicate]
  omega

/-- What is in the request when the loop has been left. -/
theorem InLoop.clocked {r r' : PbcRequest} {seen : List Poll} {sent got : Nat} {st : PollState}
    (h : InLoop r (received seen) sent got st)
    (hread : r'.pCurrentTransferReadMdlChain = st.readMdl) (status : NtStatus) :
    Clocked r seen sent got (status, r', st.written) where
  sent_le := h.sent_le
  got_le := h.got_le
  offered := h.offered
  length := h.length_written
  written := h.written
  stored := hread ▸ h.stored

/-- The information that is set behind the loop. -/
theorem InLoop.information {r : PbcRequest} {offers : List UInt8} {sent got : Nat} {st : PollState}
    (h : InLoop r offers sent got st) : (pollFinish r st).currentTransferInformation =
      min sent r.currentTransferWriteLength + min got r.currentTransferReadLength := by
  show (r.currentTransferReadLength - st.bytesToRead) +
    (r.currentTransferWriteLength - st.bytesToWrite) = _
  rw [h.bytesToRead, h.bytesToWrite]
  omega

theorem pollReturn_sound {r : PbcRequest} {polls : List Poll} {result : PollResult}
    (h : LeavesAt r (rounds polls) result) : PollSound r polls (pollReturn r result) := by
  cases result with
  | finished st =>
    have h : InLoop r _ _ _ st := h
    exact ⟨_, _,
      { toClocked := h.clocked rfl .success
        success := fun _ => ⟨rfl, rfl⟩
        cancelled := fun hnot => by cases hnot
        information := fun _ => h.information
        accessible := fun _ _ => .inl rfl }⟩
  | canceled st =>
    have h : AtRound r _ st := h
    exact ⟨_, _,
      { toClocked := h.clocked rfl .cancelled
        success := fun hnot => by cases hnot
        cancelled := fun _ => ⟨rfl, rfl⟩
        information := fun _ => h.information
        accessible := fun _ _ => .inr (.inl rfl) }⟩
  | failed st =>
    obtain ⟨⟨sent, got, h⟩, hnot⟩ := h
    exact ⟨sent, got,
      { toClocked := h.clocked rfl .invalidParameter
        success := fun hnot => by cases hnot
        cancelled := fun hnot => by cases hnot
        information := fun hor => by rcases hor with hnot | hnot <;> cases hnot
        accessible := fun hwrite hread => absurd ⟨hwrite, hread⟩ hnot }⟩

/-- **A transfer clocks its bytes, stores those that it reads, and reports them**: for all lengths,
chains and schedules. It ends when it is cancelled or the FIFOs have been ready for all bytes. -/
theorem pollSound {r : PbcRequest} (h : SetUp r) (delayed : Bool) (polls : List Poll) :
    (LongEnough r polls → (controllerDoOneTransferPollMode r delayed polls).isSome = true) ∧
      ∀ x, controllerDoOneTransferPollMode r delayed polls = some x → PollSound r polls x := by
  have hstart : AtRound r [] (pollInit r) := by
    rw [AtRound, txdRounds, received, List.filter_nil, List.map_nil, List.length_nil,
      List.countP_nil, Nat.min_zero]
    exact .start h
  rw [controllerDoOneTransferPollMode]
  split
  · next hdelay =>
    have hstatus : controllerDelayTransfer r delayed = .delayFailed := by
      revert hdelay
      unfold controllerDelayTransfer
      split_ifs <;> simp
    refine ⟨fun _ => rfl, fun x hx => ?_⟩
    obtain rfl := Option.some.inj hx
    rw [hstatus]
    exact ⟨0, 0,
      { sent_le := Nat.zero_le _
        got_le := Nat.zero_le _
        offered := Nat.zero_le _
        length := rfl
        written := rfl
        stored := by rw [Nat.zero_min]; rfl
        success := fun hnot => by cases hnot
        cancelled := fun hnot => by cases hnot
        information := fun hor => by rcases hor with hnot | hnot <;> cases hnot
        accessible := fun _ _ => .inr (.inr rfl) }⟩
  · refine ⟨fun hlong => ?_, fun x hx => ?_⟩
    · rw [Option.isSome_map]
      exact pollLoop_isSome hstart hlong
    · obtain ⟨result, hloop, rfl⟩ := Option.map_eq_some_iff.1 hx
      exact pollReturn_sound (pollLoop_leavesAt hstart hloop)

/-! ## Two transfers -/

/-- A full-duplex request of two bytes and one, each in an MDL of its own. -/
def duplexRequest : PbcRequest where
  transferCount := 1
  currentTransferIndex := 0
  currentTransferSequencePosition := .single
  currentTransferDirection := .none
  currentTransferDelayInUs := 0
  currentTransferReadLength := 1
  currentTransferWriteLength := 2
  pCurrentTransferReadMdlChain := [⟨[0], true⟩]
  pCurrentTransferWriteMdlChain := [⟨[0xA5], true⟩, ⟨[0x5A], true⟩]
  currentTransferInformation := 0
  totalInformation := 0

theorem setUp_duplexRequest : SetUp duplexRequest :=
  .fullDuplex (show onFullDuplexRequest (PbcRequest.prepare 2)
    ⟨.toDevice, 2, 0, duplexRequest.pCurrentTransferWriteMdlChain, by decide⟩
    ⟨.fromDevice, 1, 0, duplexRequest.pCurrentTransferReadMdlChain, by decide⟩ =
      .ok duplexRequest from rfl)

/-- It is cancelled with a byte in each direction to come. -/
theorem pollSound_cancelled : ∃ x,
    controllerDoOneTransferPollMode duplexRequest true
      [⟨false, true, false, 0⟩, ⟨true, true, true, 0x11⟩] = some x ∧
    x.1 = .cancelled ∧ x.2.1.currentTransferInformation = 1 ∧
    PollSound duplexRequest [⟨false, true, false, 0⟩, ⟨true, true, true, 0x11⟩] x :=
  ⟨_, rfl, rfl, rfl, (pollSound setUp_duplexRequest true _).2 _ rfl⟩

/-- The second MDL of a write is not mapped: the transfer ends behind the first byte. -/
theorem buffer_not_mapped : ¬ ∀ r, SetUp r → ∀ polls x,
    controllerDoOneTransferPollMode r true polls = some x → AllClocked r polls x := by
  intro h
  obtain ⟨sent, got, hclocked, hall, -⟩ := h _
    (.sequence (PbcRequest.prepare 1) 0
      ⟨.toDevice, 2, 0, [⟨[0xA5], true⟩, ⟨[0x5A], false⟩], by decide⟩)
    [⟨false, true, false, 0⟩, ⟨false, true, false, 0⟩] _ rfl
  have hsent := (hall (by decide)).1
  rw [← hclocked.length] at hsent
  exact absurd hsent (by decide)

end RpiDrivers.Spi0
