import Mathlib.Algebra.BigOperators.Ring.List
import Mathlib.Algebra.Order.BigOperators.Group.List
import RpiDrivers.Vchiq.Slots

/-!
# The page list of a bulk transfer (`slots.c`, `vchiq_pagelist.h`)

`VchiqBulkTransfer` turns the scatter/gather list of a buffer into a page list for VC: a word for
each element, whose lower 12 bits hold the number of following pages, the offset of the first byte
and the number of bytes. VC takes the pages of all words in their order, drops the offset and uses
as many bytes as the list says.

- `SgBuffer`: a buffer as the DMA framework describes it.
- `PageList.bytes`: what VC makes of a page list.
- `describes_iff`: the page list describes the bytes of the buffer **exactly when** no element has
  more than 16 MB, all of them are in the first GB, and none reaches into a page more than its
  length says, which only a single element can.
- `page_missing`: as many bytes as a page, across a page boundary.
-/

namespace RpiDrivers.Vchiq

/-- `PAGE_SIZE` -/
abbrev pageSize : Nat := 4096

/-- `BYTES_TO_PAGES` -/
def bytesToPages (size : Nat) : Nat :=
  (size >>> 12) + if size &&& (pageSize - 1) ≠ 0 then 1 else 0

/-! ## The scatter/gather list -/

/-- `SCATTER_GATHER_ELEMENT`; the adapter has an address width of 32 bits. -/
structure SgElement where
  address : Nat
  length : Nat
  length_pos : 0 < length
  fits : address + length ≤ ulongSize

/-- Where an element ends. -/
def SgElement.stop (e : SgElement) : Nat := e.address + e.length

/-- The elements of one buffer in virtual memory: only the first one can start, and only the last
one can end, within a page. -/
structure SgBuffer where
  elements : List SgElement
  ne_nil : elements ≠ []
  consecutive : elements.IsChain fun e e' => pageSize ∣ e.stop ∧ pageSize ∣ e'.address

/-- `BufferSize` -/
def SgBuffer.size (b : SgBuffer) : Nat := (b.elements.map SgElement.length).sum

/-- The physical addresses of the bytes, in their order. -/
def SgBuffer.bytes (b : SgBuffer) : List Nat :=
  b.elements.flatMap fun e => List.range' e.address e.length

/-! ## The page list -/

/-- `VCHIQ_PAGELIST` without its type -/
structure PageList where
  length : Nat
  offset : Nat
  addrs : List Nat

/-- The word for an element: its page as VC sees it and, from its length, the number of following
pages. -/
def pageListAddr (e : SgElement) : Nat :=
  (e.address &&& (ulongSize - pageSize)) ||| offsetDirectSdram ||| (bytesToPages e.length - 1)

/-- The page list that `VchiqBulkTransfer` builds. -/
def vchiqBulkTransferPageList (b : SgBuffer) : PageList where
  length := b.size
  offset := (b.elements.head b.ne_nil).address &&& (pageSize - 1)
  addrs := b.elements.map pageListAddr

/-- The physical address of a byte that VC addresses: SDRAM is one GB, and VC sees it directly at
`OFFSET_DIRECT_SDRAM`. -/
def sdramAddress (busAddress : Nat) : Nat := busAddress % (ulongSize - offsetDirectSdram)

/-- The bytes of the pages of a word. -/
def pageBytes (addr : Nat) : List Nat :=
  (List.range' (addr &&& (ulongSize - pageSize)) (((addr &&& (pageSize - 1)) + 1) * pageSize)).map
    sdramAddress

/-- The bytes that VC reads or writes. -/
def PageList.bytes (p : PageList) : List Nat :=
  ((p.addrs.flatMap pageBytes).drop p.offset).take p.length

/-! ## The property and the condition -/

/-- VC uses the bytes of the buffer. -/
def Describes (b : SgBuffer) : Prop := (vchiqBulkTransferPageList b).bytes = b.bytes

/-- The pages that an element reaches into. -/
def SgElement.pages (e : SgElement) : Nat := bytesToPages (e.address % pageSize + e.length)

/-- The condition on an element: not more than 16 MB, in the first GB, and on as many pages as its
length says. -/
structure SgElement.Fits (e : SgElement) : Prop where
  length_le : e.length ≤ 0x1000000
  stop_le : e.stop ≤ ulongSize - offsetDirectSdram
  pages_eq : e.pages = bytesToPages e.length

/-! ## Pages -/

theorem bytesToPages_eq (size : Nat) : bytesToPages size = (size + 4095) / 4096 := by
  have hshift : size >>> 12 = size / 4096 := Nat.shiftRight_eq_div_pow size 12
  have hmask : size &&& (pageSize - 1) = size % 4096 := Nat.and_two_pow_sub_one_eq_mod size 12
  rw [bytesToPages, hshift, hmask]
  split_ifs <;> omega

theorem bytesToPages_le {size : Nat} (h : size ≤ ulongSize) : bytesToPages size ≤ 1048576 := by
  rw [bytesToPages_eq]
  simp only [ulongSize] at h
  omega

/-- Clearing the low 12 bits of a 32-bit number rounds it down to a page. -/
theorem and_pageMask {n : Nat} (h : n < ulongSize) :
    n &&& (ulongSize - pageSize) = n / 4096 * 4096 :=
  and_highMask (k := 12) (w := 32) h (by decide)

theorem SgElement.address_lt (e : SgElement) : e.address < ulongSize :=
  Nat.lt_of_lt_of_le (Nat.lt_add_of_pos_right e.length_pos) e.fits

theorem SgElement.following_lt (e : SgElement) : bytesToPages e.length - 1 < 1048576 := by
  have hle := bytesToPages_le (Nat.le_trans (Nat.le_add_left _ _) e.fits)
  omega

theorem sdramAddress_eq (busAddress : Nat) : sdramAddress busAddress = busAddress % 2 ^ 30 := by
  have hsize : ulongSize - offsetDirectSdram = 2 ^ 30 := by decide
  rw [sdramAddress, hsize]

/-! ## The words -/

theorem pageListAddr_eq (e : SgElement) : pageListAddr e =
    (e.address / 4096 * 4096 ||| offsetDirectSdram ||| (bytesToPages e.length - 1)) := by
  rw [pageListAddr, and_pageMask e.address_lt]

theorem pageListAddr_lt (e : SgElement) : pageListAddr e < ulongSize := by
  have haddress := e.address_lt
  have hfollowing := e.following_lt
  have hpage : e.address / 4096 * 4096 < 2 ^ 32 :=
    Nat.lt_of_le_of_lt (Nat.div_mul_le_self _ _) haddress
  have hpages : bytesToPages e.length - 1 < 2 ^ 32 := Nat.lt_trans hfollowing (by decide)
  rw [pageListAddr_eq]
  exact Nat.or_lt_two_pow (n := 32) (Nat.or_lt_two_pow hpage (by decide)) hpages

/-- The number of following pages is cut off at 12 bits. -/
theorem pageListAddr_following (e : SgElement) :
    pageListAddr e &&& (pageSize - 1) = (bytesToPages e.length - 1) % 4096 := by
  have hpage : e.address / 4096 * 4096 % 2 ^ 12 = 0 := Nat.mul_mod_left ..
  have hoffset : offsetDirectSdram % 2 ^ 12 = 0 := by decide
  calc pageListAddr e &&& (pageSize - 1)
      = pageListAddr e % 2 ^ 12 := Nat.and_two_pow_sub_one_eq_mod _ 12
    _ = (bytesToPages e.length - 1) % 2 ^ 12 := by
      rw [pageListAddr_eq, Nat.or_mod_two_pow, Nat.or_mod_two_pow, hpage, hoffset, Nat.or_zero,
        Nat.zero_or]

/-- Up to 16 MB the page is that of the element. -/
theorem pageListAddr_page {e : SgElement} (h : e.length ≤ 0x1000000) :
    sdramAddress (pageListAddr e &&& (ulongSize - pageSize)) =
      sdramAddress (e.address / 4096 * 4096) := by
  have hfew : bytesToPages e.length - 1 < 2 ^ 12 := by
    rw [bytesToPages_eq]
    omega
  have hoffset : offsetDirectSdram % 2 ^ 30 = 0 := by decide
  have hfollowing : (bytesToPages e.length - 1) % 2 ^ 30 = bytesToPages e.length - 1 :=
    Nat.mod_eq_of_lt (Nat.lt_trans hfew (by decide))
  obtain ⟨q, hq⟩ : ∃ q, e.address / 4096 * 4096 % 2 ^ 30 = 2 ^ 12 * q :=
    ⟨e.address / 4096 % 2 ^ 18, by omega⟩
  have hword : pageListAddr e % 2 ^ 30 = 2 ^ 12 * q + (bytesToPages e.length - 1) := by
    rw [pageListAddr_eq, Nat.or_mod_two_pow, Nat.or_mod_two_pow, hq, hoffset, hfollowing,
      Nat.or_zero, Nat.two_pow_add_eq_or_of_lt hfew]
  rw [and_pageMask (pageListAddr_lt e), sdramAddress_eq, sdramAddress_eq, hq]
  clear hq
  omega

theorem length_pageBytes (e : SgElement) : (pageBytes (pageListAddr e)).length =
    ((bytesToPages e.length - 1) % 4096 + 1) * 4096 := by
  rw [pageBytes, List.length_map, List.length_range', pageListAddr_following]

/-- **The word of an element that fits** has its pages. -/
theorem SgElement.Fits.pageBytes {e : SgElement} (h : e.Fits) :
    pageBytes (pageListAddr e) = List.range' (e.address / 4096 * 4096) (e.pages * 4096) := by
  have hpos : 0 < e.length := e.length_pos
  have hlength : ((bytesToPages e.length - 1) % 4096 + 1) * 4096 = e.pages * 4096 := by
    have hle := h.length_le
    rw [h.pages_eq, bytesToPages_eq]
    omega
  refine List.ext_getElem ?_ fun i hi hi' => ?_
  · rw [length_pageBytes, List.length_range', hlength]
  · have hpage := pageListAddr_page h.length_le
    have hstop : e.address + e.length ≤ 1073741824 := h.stop_le
    rw [List.length_range', SgElement.pages, bytesToPages_eq] at hi'
    simp only [Vchiq.pageBytes, List.getElem_map, List.getElem_range', Nat.one_mul]
    rw [sdramAddress_eq, sdramAddress_eq] at hpage
    rw [sdramAddress_eq]
    simp only [pageSize] at hi'
    omega

/-! ## The elements of a buffer -/

/-- Elements that belong to one buffer. -/
abbrev Consecutive (elements : List SgElement) : Prop :=
  elements.IsChain fun e e' => pageSize ∣ e.stop ∧ pageSize ∣ e'.address

/-- An element is on as many pages as its length says when it ends at the end of a page. -/
theorem SgElement.pages_of_dvd {e : SgElement} (h : pageSize ∣ e.stop) :
    e.pages = bytesToPages e.length ∧ e.address % 4096 + e.length = e.pages * 4096 := by
  have hpos := e.length_pos
  have hstop : (e.address + e.length) % 4096 = 0 := Nat.mod_eq_zero_of_dvd h
  rw [pages, bytesToPages_eq, bytesToPages_eq]
  simp only [pageSize]
  omega

theorem SgElement.pages_eq (e : SgElement) :
    e.pages = (e.address % 4096 + e.length + 4095) / 4096 :=
  bytesToPages_eq _

/-- It is never on fewer. -/
theorem SgElement.le_pages (e : SgElement) : bytesToPages e.length ≤ e.pages := by
  rw [pages_eq, bytesToPages_eq]
  omega

theorem dvd_address : ∀ (e : SgElement) (rest : List SgElement), Consecutive (e :: rest) →
    ∀ f ∈ rest, pageSize ∣ f.address
  | _, [], _, _, hf => by cases hf
  | _, e' :: rest, h, f, hf => by
    obtain ⟨⟨-, haligned⟩, hrest⟩ := List.isChain_cons_cons.1 h
    rcases List.mem_cons.1 hf with rfl | hf
    · exact haligned
    · exact dvd_address e' rest hrest f hf

/-- **Of more than one element** none is on more pages than its length says. -/
theorem pages_of_two {e e' : SgElement} {rest : List SgElement}
    (h : Consecutive (e :: e' :: rest)) :
    ∀ f ∈ e :: e' :: rest, f.pages = bytesToPages f.length := by
  intro f hf
  rcases List.mem_cons.1 hf with rfl | hf
  · exact (f.pages_of_dvd (List.isChain_cons_cons.1 h).1.1).1
  · have hzero : f.address % 4096 = 0 := Nat.mod_eq_zero_of_dvd (dvd_address _ _ h f hf)
    rw [f.pages_eq, hzero, bytesToPages_eq, Nat.zero_add]

/-- **The pages of a buffer** are those from its offset on. -/
theorem sum_pages : ∀ (e : SgElement) (rest : List SgElement), Consecutive (e :: rest) →
    ((e :: rest).map SgElement.pages).sum =
      (e.address % 4096 + ((e :: rest).map SgElement.length).sum + 4095) / 4096
  | e, [], _ => by
    simp only [List.map_cons, List.map_nil, List.sum_cons, List.sum_nil, Nat.add_zero]
    exact e.pages_eq
  | e, e' :: rest, h => by
    obtain ⟨⟨hstop, haligned⟩, hrest⟩ := List.isChain_cons_cons.1 h
    have ih := sum_pages e' rest hrest
    have hzero : e'.address % 4096 = 0 := Nat.mod_eq_zero_of_dvd haligned
    have hfull := (e.pages_of_dvd hstop).2
    simp only [List.map_cons, List.sum_cons] at ih ⊢
    rw [ih, hzero]
    generalize (rest.map SgElement.length).sum = total
    omega

/-- **What VC finds from the offset on** begins with the bytes of elements that fit. -/
theorem exists_extra : ∀ (e : SgElement) (rest : List SgElement), Consecutive (e :: rest) →
    (∀ e' ∈ e :: rest, e'.Fits) → ∃ extra,
      (((e :: rest).map pageListAddr).flatMap pageBytes).drop (e.address % 4096) =
        ((e :: rest).flatMap fun e => List.range' e.address e.length) ++ extra
  | e, [], _, hfits => by
    obtain ⟨k, hpages⟩ : ∃ k, e.pages * 4096 - e.address % 4096 = e.length + k :=
      Nat.exists_eq_add_of_le (by rw [e.pages_eq]; omega)
    refine ⟨List.range' (e.address + e.length) k, ?_⟩
    simp only [List.map_cons, List.map_nil, List.flatMap_cons, List.flatMap_nil, List.append_nil]
    rw [(hfits e List.mem_cons_self).pageBytes, List.drop_range', Nat.mul_one,
      Nat.div_add_mod', hpages, List.range'_append_1]
  | e, e' :: rest, h, hfits => by
    obtain ⟨⟨hstop, haligned⟩, hrest⟩ := List.isChain_cons_cons.1 h
    have hfull := (e.pages_of_dvd hstop).2
    have hpages : e.pages * 4096 - e.address % 4096 = e.length := by omega
    obtain ⟨extra, ih⟩ := exists_extra e' rest hrest fun f hf =>
      hfits f (List.mem_cons_of_mem _ hf)
    rw [Nat.mod_eq_zero_of_dvd haligned, List.drop_zero] at ih
    refine ⟨extra, ?_⟩
    rw [List.map_cons, List.flatMap_cons, ih, (hfits e List.mem_cons_self).pageBytes,
      List.drop_append_of_le_length (by rw [List.length_range']; omega), List.drop_range',
      Nat.mul_one, Nat.div_add_mod', hpages, ← List.append_assoc]
    rfl

theorem length_bytes (b : SgBuffer) : b.bytes.length = b.size := by
  rw [SgBuffer.bytes, SgBuffer.size, List.length_flatMap]
  simp only [List.length_range']

/-- A page list that is long enough for a buffer has all its pages. -/
theorem fits_of_length {e : SgElement} {rest : List SgElement} (h : Consecutive (e :: rest))
    (hlength : e.address % 4096 + ((e :: rest).map SgElement.length).sum ≤
      (((e :: rest).map pageListAddr).flatMap pageBytes).length) :
    ∀ e' ∈ e :: rest, e'.length ≤ 0x1000000 ∧ e'.pages = bytesToPages e'.length := by
  have hsum : (((e :: rest).map pageListAddr).flatMap pageBytes).length =
      ((e :: rest).map fun e => (bytesToPages e.length - 1) % 4096 + 1).sum * 4096 := by
    rw [List.flatMap_map, List.length_flatMap]
    simp only [length_pageBytes]
    exact List.sum_map_mul_right ..
  have hpages := sum_pages e rest h
  intro e' he'
  by_contra hnot
  have hlt : ((e :: rest).map fun e => (bytesToPages e.length - 1) % 4096 + 1).sum <
      ((e :: rest).map SgElement.pages).sum := by
    have hle : ∀ f : SgElement, (bytesToPages f.length - 1) % 4096 + 1 ≤ f.pages := by
      intro f
      have hpos := f.length_pos
      have hpages := f.le_pages
      rw [bytesToPages_eq] at hpages ⊢
      omega
    refine List.sum_lt_sum _ _ (fun f _ => hle f) ⟨e', he', ?_⟩
    have hpos := e'.length_pos
    have hpages := e'.le_pages
    rw [bytesToPages_eq] at hpages hnot ⊢
    omega
  omega

/-- VC addresses only the first GB. -/
theorem lt_of_mem_bytes {p : PageList} {x : Nat} (h : x ∈ p.bytes) :
    x < ulongSize - offsetDirectSdram := by
  obtain ⟨addr, -, hx⟩ := List.mem_flatMap.1 (List.mem_of_mem_drop (List.mem_of_mem_take h))
  obtain ⟨byte, -, rfl⟩ := List.mem_map.1 hx
  exact Nat.mod_lt _ (by decide)

/-- **The page list describes the buffer** exactly when its elements fit. -/
theorem describes_iff (b : SgBuffer) : Describes b ↔ ∀ e ∈ b.elements, e.Fits := by
  have hlength := length_bytes b
  have hoffset : (vchiqBulkTransferPageList b).offset = (b.elements.head b.ne_nil).address % 4096 :=
    Nat.and_two_pow_sub_one_eq_mod _ 12
  have hdecode : (vchiqBulkTransferPageList b).bytes =
      (((b.elements.map pageListAddr).flatMap pageBytes).drop
        ((b.elements.head b.ne_nil).address % 4096)).take b.size := by
    rw [PageList.bytes, hoffset]
    rfl
  constructor
  · intro hbytes e he
    have hinside : e.stop ≤ ulongSize - offsetDirectSdram := by
      have hpos := e.length_pos
      have hmem : e.address + (e.length - 1) ∈ b.bytes :=
        List.mem_flatMap.2 ⟨e, he, List.mem_range'_1.2 (by omega)⟩
      rw [← hbytes] at hmem
      have hlt := lt_of_mem_bytes hmem
      rw [SgElement.stop]
      omega
    have hlong := congrArg List.length hbytes
    rw [hlength, hdecode, List.length_take, List.length_drop] at hlong
    obtain ⟨elements, ne_nil, consecutive⟩ := b
    match elements, ne_nil, consecutive with
    | first :: rest, _, consecutive =>
      have hpos := first.length_pos
      have hsize : first.length ≤ ((first :: rest).map SgElement.length).sum :=
        Nat.le_add_right _ _
      simp only [SgBuffer.size, List.head_cons] at hlong
      obtain ⟨hle, hpages⟩ := fits_of_length consecutive (by omega) e he
      exact ⟨hle, hinside, hpages⟩
  · intro hfits
    rw [Describes, hdecode]
    obtain ⟨elements, ne_nil, consecutive⟩ := b
    match elements, ne_nil, consecutive with
    | first :: rest, _, consecutive =>
      obtain ⟨extra, hextra⟩ := exists_extra first rest consecutive hfits
      rw [List.head_cons, hextra, ← hlength]
      exact List.take_left

/-- A buffer of one page that begins in the middle of a page. -/
def halfPage : SgBuffer where
  elements := [⟨0x1000800, 0x1000, by decide, by decide⟩]
  ne_nil := List.cons_ne_nil _ _
  consecutive := .singleton _

/-- **Its second page is missing.** -/
theorem page_missing : ¬ Describes halfPage := by
  intro h
  have hpages : ((vchiqBulkTransferPageList halfPage).addrs.flatMap pageBytes).length = 4096 := by
    simp only [vchiqBulkTransferPageList, halfPage, List.map_cons, List.map_nil,
      List.flatMap_cons, List.flatMap_nil, List.append_nil, length_pageBytes]
    decide
  have hoffset : (vchiqBulkTransferPageList halfPage).offset = 2048 := by decide
  have hlength := congrArg List.length h
  rw [length_bytes, PageList.bytes, List.length_take, List.length_drop, hpages, hoffset] at hlength
  exact absurd hlength (by decide)

end RpiDrivers.Vchiq
