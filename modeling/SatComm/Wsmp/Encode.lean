import SatComm.Asnbuf.Length

/-!
# `wsmp_encode`

The header goes octet by octet into an abuf of its own, the payload gets its length in front,
and then the header is pushed in front of that. `headerOctets` says what stands in the header;
`wsmpEncode_spec` that these octets, the length and the payload are what comes out.

The PSID is a value up to `MAX_PSID` by its type. The user's memory `src` holds the channel
load.
-/

namespace SatComm.Wsmp

open Bits Asnbuf Abuf

/-! ## The data model -/

/-- The numerals of a field of three bits. -/
instance neZeroEight : NeZero 8 := ⟨nofun⟩

/-- The numerals of a field of four bits. -/
instance neZeroSixteen : NeZero 16 := ⟨nofun⟩

/-- `WSMP_N_HEADER_t`. -/
structure NHeader where
  version : Fin 8
  optionIndicator : Bool
  subtype : Fin 16
deriving DecidableEq, Repr

namespace NHeader

/-- The octet of the union. -/
def data (h : NHeader) : Nat := h.version + 8 * h.optionIndicator.toNat + 16 * h.subtype

def ofOctet (o : Nat) : NHeader where
  version := ⟨o % 8, Nat.mod_lt _ (by decide)⟩
  optionIndicator := o / 8 % 2 == 1
  subtype := ⟨o / 16 % 16, Nat.mod_lt _ (by decide)⟩

theorem data_lt (h : NHeader) : h.data < 256 := by
  have := h.version.isLt
  have := h.subtype.isLt
  have := Bool.toNat_le h.optionIndicator
  unfold data
  omega

@[simp] theorem ofOctet_data (h : NHeader) : ofOctet h.data = h := by
  obtain ⟨⟨v, hv⟩, o, ⟨s, hs⟩⟩ := h
  cases o with
  | false =>
    simp only [ofOctet, data, mk.injEq, Fin.mk.injEq, Bool.toNat_false, beq_eq_false_iff_ne]
    omega
  | true =>
    simp only [ofOctet, data, mk.injEq, Fin.mk.injEq, Bool.toNat_true, beq_iff_eq]
    omega

end NHeader

/-- `MAX_PSID`. -/
def maxPsid : Nat := 0x1020407f

/-- `wsmp_optional_weids_t`. -/
structure WeidOpts where
  incRateExt : Bool
  incChanExt : Bool
  incPwrExt : Bool
  incLoadExt : Bool
deriving DecidableEq, Repr

/-- What `wsmp_encode` reads of `wsmp_data_t`. -/
structure Header where
  nHeader : NHeader
  srcPort : UInt16
  dstPort : UInt16
  weidOpts : WeidOpts
  rate : UInt8
  chan : UInt8
  pwr : UInt8
  tpid : UInt8
  psid : {n : Nat // n ≤ maxPsid}
  chanLoadPtr : Nat
  chanLoadLen : Nat

/-- The `weid_qty` the encoder counts. -/
def Header.weidQty (w : Header) : Nat :=
  w.weidOpts.incRateExt.toNat + w.weidOpts.incChanExt.toNat + w.weidOpts.incPwrExt.toNat +
    w.weidOpts.incLoadExt.toNat

/-- The N-header as written: the indicator is set when there are elements, and otherwise left
as it was. -/
def Header.written (w : Header) : NHeader :=
  if w.weidQty ≠ 0 then { w.nHeader with optionIndicator := true } else w.nHeader

/-! ## The code -/

/-- `memcpy` into the block of an abuf. -/
def pokeAll (bp : Abuf) (p : Nat) (os : List Nat) : Abuf :=
  { bp with
    mem := bp.mem.storeAll p os
    written := (List.range' p os.length).reverse ++ bp.written }

/-- The loop of `asn_ncat` for a tail byte already begun. It takes four bits of every four
bytes. -/
def ncatWords (src : Mem) : Nat → Nat → Nat → Abuf → Abuf
  | 0, _, _, bp => bp
  | fuel + 1, p, remaining, bp =>
    if 32 ≤ remaining then
      ncatWords src fuel (p + 4) (remaining - 4) (asnNcatBits bp (src.field (8 * p) 32) 4).2
    else if 0 < remaining then (asnNcatBits bp (src.field (8 * p) 32) remaining).2
    else bp

/-- `asn_ncat`. -/
def asnNcat (src : Mem) (bp : Abuf) (p n : Nat) : Abuf :=
  if 0 < n then
    let bp := abufTailReady bp
    if bp.tailBitsLeft = 8 then
      match abufPut bp n with
      | (some copyToHere, bp) => pokeAll bp copyToHere (src.octets p n)
      | (none, bp) => bp
    else ncatWords src (n * 8) p (n * 8) bp
  else bp

/-- `WSM_PSID_PCODED_LEN`. -/
def wsmPsidPcodedLen (psid : Nat) : Nat :=
  if 0x204080 ≤ psid then 4 else if 0x4080 ≤ psid then 3 else if 0x80 ≤ psid then 2 else 1

/-- The octets `wsmp_add_psid` stores. -/
def psidOctets (psid : Nat) : List Nat :=
  if 0x204080 ≤ psid then
    let p := psid + 0xdfdfbf80
    [p >>> 24 % 256, p >>> 16 % 256, p >>> 8 % 256, p % 256]
  else if 0x4080 ≤ psid then
    let p := psid + 0xbfbf80
    [p >>> 16 % 256, p >>> 8 % 256, p % 256]
  else if 0x80 ≤ psid then
    let p := psid + 0x7f80
    [p >>> 8 % 256, p % 256]
  else [psid]

/-- `abuf_add_PSID`. -/
def abufAddPsid (bp : Abuf) (psid : Nat) : Abuf :=
  match abufPut bp (wsmPsidPcodedLen psid) with
  | (some cp, bp) => pokeAll bp cp (psidOctets psid)
  | (none, bp) => bp

/-- `htons` on a little-endian machine. -/
def htons (x : UInt16) : Nat := x.toNat % 256 * 256 + x.toNat / 256

/-- `asn_ncat_bits` of one octet after the other. -/
def ncatOctets (bp : Abuf) (os : List Nat) : Abuf :=
  os.foldl (fun bp o => (asnNcatBits bp o 8).2) bp

/-- An element with a one-octet value. -/
def putElement (inc : Bool) (id value : Nat) (bp : Abuf) : Abuf :=
  if inc then ncatOctets bp [id, 1, value] else bp

/-- The channel load element. -/
def putLoad (src : Mem) (w : Header) (bp : Abuf) : Abuf :=
  if w.weidOpts.incLoadExt then
    asnNcat src (asnPutEncodedLen (asnNcatBits bp 23 8).2 w.chanLoadLen) w.chanLoadPtr
      w.chanLoadLen
  else bp

/-- The elements. -/
def putWeids (src : Mem) (w : Header) (bp : Abuf) : Abuf :=
  let bp := putElement w.weidOpts.incRateExt 16 w.rate.toNat bp
  let bp := putElement w.weidOpts.incPwrExt 4 w.pwr.toNat bp
  let bp := putElement w.weidOpts.incChanExt 15 w.chan.toNat bp
  putLoad src w bp

/-- `encode_wsm2016` up to the TPID octet. -/
def putNHeader (src : Mem) (w : Header) (bp : Abuf) : Abuf :=
  let bp := (asnNcatBits bp w.written.data 8).2
  if w.weidQty ≠ 0 then putWeids src w (asnNcatBits bp w.weidQty 8).2 else bp

/-- The header. The TPID octet is written as it stands and loses its lowest bit afterwards. -/
def putHeader (src : Mem) (w : Header) (bp : Abuf) : Abuf :=
  let bp := (asnNcatBits (putNHeader src w bp) w.tpid.toNat 8).2
  if w.tpid.toNat &&& 0xfe < 2 then abufAddPsid bp w.psid
  else (asnNcatBits (asnNcatBits bp (htons w.srcPort) 8).2 (htons w.dstPort) 8).2

/-- `encode_wsm2016`: the result and the payload abuf. -/
def encodeWsm2016 (src : Mem) (w : Header) (abp payload : Abuf) : Int × Abuf :=
  let abp := putHeader src w abp
  if 3 < w.tpid.toNat &&& 0xfe then (-2, payload)
  else
    let payload := abufTrim payload
    let abp := abufTrim abp
    let payload := abufMergeSecond abp (asnPushLen payload).2
    (abufByteLen payload, payload)

/-- `wsmp_encode`, with a header abuf `abp` that is allocated. -/
def wsmpEncode (src : Mem) (w : Header) (abp payload : Abuf) : Int × Abuf :=
  if abp.size = 0 then (-1, payload) else encodeWsm2016 src w (abufReset abp 20) payload

/-! ## The octets of a header -/

/-- An element with a one-octet value. -/
def elementOctets (inc : Bool) (id value : Nat) : List Nat := if inc then [id, 1, value] else []

/-- The length of the channel load; a length of `0` is not written. -/
def loadLenOctets (len : Nat) : List Nat := if 0 < len then lengthOctets len else []

def loadOctets (src : Mem) (w : Header) : List Nat :=
  if w.weidOpts.incLoadExt then
    23 :: (loadLenOctets w.chanLoadLen ++ src.octets w.chanLoadPtr w.chanLoadLen)
  else []

/-- The elements in the order they are written. -/
def weidOctets (src : Mem) (w : Header) : List Nat :=
  elementOctets w.weidOpts.incRateExt 16 w.rate.toNat ++
    (elementOctets w.weidOpts.incPwrExt 4 w.pwr.toNat ++
      (elementOctets w.weidOpts.incChanExt 15 w.chan.toNat ++ loadOctets src w))

def nHeaderOctets (src : Mem) (w : Header) : List Nat :=
  w.written.data :: if w.weidQty ≠ 0 then w.weidQty :: weidOctets src w else []

/-- The PSID, or one octet of each port. -/
def transportOctets (w : Header) : List Nat :=
  if w.tpid.toNat < 2 then psidOctets w.psid
  else [w.srcPort.toNat / 256, w.dstPort.toNat / 256]

def headerOctets (src : Mem) (w : Header) : List Nat :=
  nHeaderOctets src w ++ (w.tpid.toNat :: transportOctets w)

/-! ## Octets behind octets -/

/-- `bp'` is `bp` with octets appended, on octet boundaries. -/
structure Put (bp bp' : Abuf) (os : List Nat) : Prop where
  appended : Appended bp bp' (octetBits os)
  left : bp.tailBitsLeft = 8
  left' : bp'.tailBitsLeft = 8

namespace Put

theorem refl {bp : Abuf} (h8 : bp.tailBitsLeft = 8) : Put bp bp [] := ⟨.refl bp, h8, h8⟩

theorem trans {a b c : Abuf} {os os' : List Nat} (h : Put a b os) (h' : Put b c os') :
    Put a c (os ++ os') :=
  ⟨by rw [octetBits_append]; exact h.appended.trans h'.appended, h.left, h'.left'⟩

theorem tail {bp bp' : Abuf} {os : List Nat} (h : Put bp bp' os) :
    bp'.tail = bp.tail + os.length := by
  have hpos := h.appended.tailPos
  simp only [tailPos, h.left, h.left', length_octetBits] at hpos
  omega

theorem end_ {bp bp' : Abuf} {os : List Nat} (h : Put bp bp' os) : bp'.end_ = bp.end_ :=
  h.appended.frame.end_

end Put

/-- One octet; only its low eight bits count. -/
theorem put_ncat {bp : Abuf} {v o : Nat} (h8 : bp.tailBitsLeft = 8) (hv : v % 256 = o % 256) :
    Put bp (asnNcatBits bp v 8).2 [o] := by
  obtain ⟨happ, h8'⟩ := asnNcatBits_octet v h8
  have hbits : toBits 8 v = octetBits [o] := by
    rw [octetBits_cons, octetBits_nil, List.append_nil, ← toBits_mod 8 v, ← toBits_mod 8 o]
    exact congrArg (toBits 8) hv
  rw [hbits] at happ
  exact ⟨happ, h8, h8'⟩

theorem put_ncatOctets {bp : Abuf} (os : List Nat) (h8 : bp.tailBitsLeft = 8) :
    Put bp (ncatOctets bp os) os := by
  induction os generalizing bp with
  | nil => exact .refl h8
  | cons o os ih =>
    have hfirst := put_ncat (o := o) h8 rfl
    exact hfirst.trans (ih hfirst.left')

theorem put_putElement {bp : Abuf} (inc : Bool) (id value : Nat) (h8 : bp.tailBitsLeft = 8) :
    Put bp (putElement inc id value bp) (elementOctets inc id value) := by
  unfold putElement elementOctets
  split
  · exact put_ncatOctets _ h8
  · exact .refl h8

/-- Room taken with `abuf_put` and filled. -/
theorem put_pokeAll {bp : Abuf} (os : List Nat) (h8 : bp.tailBitsLeft = 8) :
    Put bp (pokeAll (bp.withTail (bp.tail + os.length) bp.tailBitsLeft) bp.tail os) os := by
  have hpos : bp.tailPos = 8 * bp.tail := by
    rw [tailPos, h8]
    omega
  refine ⟨⟨⟨rfl, rfl, rfl, rfl, rfl⟩, ?_, ?_, ?_⟩, h8, h8⟩
  · change 8 * (bp.tail + os.length) + (8 - bp.tailBitsLeft) = _
    rw [length_octetBits, hpos, h8]
    omega
  · intro q hq
    exact Mem.bit_storeAll_of_lt os (by omega)
  · rw [length_octetBits, hpos]
    exact Mem.bits_storeAll bp.tail os

theorem abufPut_of_room {bp : Abuf} {n : Nat} (h : bp.tail + n ≤ bp.end_) :
    abufPut bp n = (some bp.tail, bp.withTail (bp.tail + n) bp.tailBitsLeft) := by
  unfold abufPut
  rw [if_neg (by omega)]

theorem put_asnNcat (src : Mem) {bp : Abuf} {p n : Nat} (h8 : bp.tailBitsLeft = 8)
    (hroom : bp.tail + n ≤ bp.end_) : Put bp (asnNcat src bp p n) (src.octets p n) := by
  unfold asnNcat
  by_cases hn : 0 < n
  · have hput := put_pokeAll (src.octets p n) h8
    rw [Mem.length_octets] at hput
    rw [if_pos hn]
    have hready : abufTailReady bp = bp := abufTailReady_eq_self (by omega)
    simp only [hready, if_pos h8, abufPut_of_room hroom]
    exact hput
  · obtain rfl : n = 0 := by omega
    rw [if_neg hn]
    exact .refl h8

theorem length_psidOctets (psid : Nat) : (psidOctets psid).length = wsmPsidPcodedLen psid := by
  unfold psidOctets wsmPsidPcodedLen
  split
  · rfl
  · split
    · rfl
    · split <;> rfl

theorem put_abufAddPsid {bp : Abuf} (psid : Nat) (h8 : bp.tailBitsLeft = 8)
    (hroom : bp.tail + (psidOctets psid).length ≤ bp.end_) :
    Put bp (abufAddPsid bp psid) (psidOctets psid) := by
  have hput := put_pokeAll (psidOctets psid) h8
  unfold abufAddPsid
  rw [← length_psidOctets, abufPut_of_room hroom]
  exact hput

theorem put_asnPutEncodedLen {bp : Abuf} {len : Nat} (h8 : bp.tailBitsLeft = 8)
    (hlt : len < 0x4000) : Put bp (asnPutEncodedLen bp len) (loadLenOctets len) := by
  unfold loadLenOctets
  split
  · rename_i hpos
    obtain ⟨happ, h8'⟩ := asnPutEncodedLen_spec hpos hlt h8
    exact ⟨happ, h8, h8'⟩
  · rename_i hpos
    rw [asnPutEncodedLen, if_neg hpos]
    exact .refl h8

/-! ## The header -/

section header

variable (src : Mem) (w : Header)

theorem put_putLoad {bp : Abuf} (h8 : bp.tailBitsLeft = 8)
    (hlt : w.weidOpts.incLoadExt = true → w.chanLoadLen < 0x4000)
    (hroom : bp.tail + (loadOctets src w).length ≤ bp.end_) :
    Put bp (putLoad src w bp) (loadOctets src w) := by
  unfold putLoad loadOctets at *
  split
  · rename_i hinc
    rw [if_pos hinc] at hroom
    have hid := put_ncat (v := 23) (o := 23) h8 rfl
    have hlen := hid.trans (put_asnPutEncodedLen hid.left' (hlt hinc))
    have hall := hlen.trans (put_asnNcat src (p := w.chanLoadPtr) (n := w.chanLoadLen) hlen.left' ?_)
    · exact hall
    · rw [hlen.tail, hlen.end_]
      simp only [List.length_cons, List.length_append, Mem.length_octets, List.length_nil] at *
      omega
  · exact .refl h8

theorem put_putWeids {bp : Abuf} (h8 : bp.tailBitsLeft = 8)
    (hlt : w.weidOpts.incLoadExt = true → w.chanLoadLen < 0x4000)
    (hroom : bp.tail + (weidOctets src w).length ≤ bp.end_) :
    Put bp (putWeids src w bp) (weidOctets src w) := by
  have hrate := put_putElement w.weidOpts.incRateExt 16 w.rate.toNat h8
  have hpwr := put_putElement w.weidOpts.incPwrExt 4 w.pwr.toNat hrate.left'
  have hchan := put_putElement w.weidOpts.incChanExt 15 w.chan.toNat hpwr.left'
  have hthree := hrate.trans (hpwr.trans hchan)
  have hload := put_putLoad src w hchan.left' hlt ?_
  · exact hrate.trans (hpwr.trans (hchan.trans hload))
  · rw [hthree.tail, hthree.end_]
    simp only [weidOctets, List.length_append] at *
    omega

theorem put_putNHeader {bp : Abuf} (h8 : bp.tailBitsLeft = 8)
    (hlt : w.weidOpts.incLoadExt = true → w.chanLoadLen < 0x4000)
    (hroom : bp.tail + (nHeaderOctets src w).length ≤ bp.end_) :
    Put bp (putNHeader src w bp) (nHeaderOctets src w) := by
  have hfirst := put_ncat (v := w.written.data) (o := w.written.data) h8 rfl
  unfold putNHeader
  simp only [nHeaderOctets] at *
  by_cases hqty : w.weidQty ≠ 0
  · rw [if_pos hqty] at hroom ⊢
    rw [if_pos hqty]
    have hcount := put_ncat (v := w.weidQty) (o := w.weidQty) hfirst.left' rfl
    have htwo := hfirst.trans hcount
    have hweids := put_putWeids src w hcount.left' hlt ?_
    · exact htwo.trans hweids
    · rw [htwo.tail, htwo.end_]
      simp only [List.length_cons, List.length_append, List.length_nil] at *
      omega
  · rw [if_neg hqty, if_neg hqty]
    exact hfirst

theorem and_fe {t : Nat} (ht : t < 256) : t &&& 0xfe = t / 2 * 2 := by
  interval_cases t <;> rfl

theorem htons_mod (x : UInt16) : htons x % 256 = x.toNat / 256 % 256 := by
  unfold htons
  omega

theorem put_putHeader (bp : Abuf) (h8 : bp.tailBitsLeft = 8)
    (hlt : w.weidOpts.incLoadExt = true → w.chanLoadLen < 0x4000)
    (hroom : bp.tail + (headerOctets src w).length ≤ bp.end_) :
    Put bp (putHeader src w bp) (headerOctets src w) := by
  have hfe := and_fe w.tpid.toNat_lt
  simp only [headerOctets, List.length_append, List.length_cons] at hroom
  have hn := put_putNHeader src w h8 hlt (by omega)
  have htpid := put_ncat (v := w.tpid.toNat) (o := w.tpid.toNat) hn.left' rfl
  have hboth := hn.trans htpid
  unfold putHeader headerOctets
  simp only [transportOctets] at *
  by_cases hpsid : w.tpid.toNat < 2
  · rw [if_pos hpsid] at hroom ⊢
    rw [if_pos (by omega)]
    have hadd := put_abufAddPsid w.psid htpid.left' ?_
    · exact hn.trans (htpid.trans hadd)
    · rw [hboth.tail, hboth.end_]
      simp only [List.length_append, List.length_cons, List.length_nil]
      omega
  · rw [if_neg hpsid, if_neg (by omega)]
    have hsrc := put_ncat htpid.left' (htons_mod w.srcPort)
    have hdst := put_ncat hsrc.left' (htons_mod w.dstPort)
    exact hn.trans (htpid.trans (hsrc.trans hdst))

end header

/-! ## The message -/

/-- The message of an abuf is a list of octets. -/
structure Carries (bp : Abuf) (os : List Nat) : Prop where
  headspace : bp.headHeadspaceBits = 0
  tail : (bp.tailBitsLeft = 8 ∧ bp.tail = bp.data + os.length) ∨
    (bp.tailBitsLeft = 0 ∧ bp.tail + 1 = bp.data + os.length)
  holds : bp.mem.Holds bp.data os

theorem Carries.abufTrim {bp : Abuf} {os : List Nat} (h : Carries bp os) (hne : os ≠ []) :
    Carries (abufTrim bp) os ∧ (abufTrim bp).tailBitsLeft = 0 ∧
      (abufTrim bp).tail + 1 = bp.data + os.length ∧ (abufTrim bp).head = bp.head ∧
      (abufTrim bp).data = bp.data := by
  have hpos := List.length_pos_of_ne_nil hne
  have htrim : Asnbuf.abufTrim bp =
      if bp.tailBitsLeft = 8 then bp.withTail (bp.tail - 1) 0 else bp := by
    simp [Asnbuf.abufTrim, h.headspace]
  rw [htrim]
  rcases h.tail with ⟨h8, ht⟩ | ⟨h0, ht⟩
  · rw [if_pos h8]
    have ht' : bp.tail - 1 + 1 = bp.data + os.length := by omega
    exact ⟨⟨h.headspace, .inr ⟨rfl, ht'⟩, h.holds⟩, rfl, ht', rfl, rfl⟩
  · rw [if_neg (by omega)]
    exact ⟨h, h0, ht, rfl, rfl⟩

/-- Octets that were put behind an empty front. -/
theorem Put.carries {bp bp' : Abuf} {os : List Nat} (h : Put bp bp' os)
    (hempty : bp.tail = bp.data) (hhs : bp.headHeadspaceBits = 0) (hlt : ∀ o ∈ os, o < 256) :
    Carries bp' os := by
  have hframe := h.appended.frame
  refine ⟨hframe.headHeadspaceBits.trans hhs, .inl ⟨h.left', ?_⟩, ?_⟩
  · rw [h.tail, hempty, hframe.data]
  · have hnew := h.appended.new
    have hpos : bp.tailPos = 8 * bp.data := by
      rw [tailPos, h.left, hempty]
      omega
    rw [length_octetBits, hpos] at hnew
    rw [hframe.data]
    exact Mem.holds_of_bits hlt hnew

/-- Octets that were pushed in front of octets. -/
theorem Carries.pushed {bp bp' : Abuf} {os os' : List Nat} (h : Carries bp os)
    (hp : Pushed bp bp' (octetBits os')) (hhs : bp'.headHeadspaceBits < 8)
    (hlt : ∀ o ∈ os', o < 256) :
    Carries bp' (os' ++ os) ∧ bp'.data + os'.length = bp.data := by
  have hstart := hp.startPos
  rw [length_octetBits] at hstart
  simp only [startPos, h.headspace] at hstart
  have hhs0 : bp'.headHeadspaceBits = 0 := by omega
  have hdata : bp'.data + os'.length = bp.data := by omega
  refine ⟨⟨hhs0, ?_, ?_⟩, hdata⟩
  · rw [hp.tail, hp.tailBitsLeft, List.length_append]
    rcases h.tail with ht | ht
    · exact .inl ⟨ht.1, by omega⟩
    · exact .inr ⟨ht.1, by omega⟩
  · rw [Mem.holds_append, hdata]
    constructor
    · have hnew := hp.new
      have hpos : bp'.startPos = 8 * bp'.data := by
        rw [startPos, hhs0]
        omega
      rw [length_octetBits, hpos] at hnew
      exact Mem.holds_of_bits hlt hnew
    · rw [Mem.holds_iff_octets, ← Mem.holds_iff_octets.mp h.holds]
      simp only [Mem.octets, List.length_map, List.length_range]
      apply List.map_congr_left
      intro i _
      apply Nat.eq_of_testBit_eq
      intro j
      by_cases hj : j < 8
      · have hbit := hp.kept (8 * (bp.data + i) + (7 - j)) (by
          simp only [startPos, h.headspace]
          omega)
        rw [Mem.bit_of_byte _ _ _ (by omega), Mem.bit_of_byte _ _ _ (by omega)] at hbit
        rwa [show 7 - (7 - j) = j by omega] at hbit
      · have hpow : 2 ^ 8 ≤ 2 ^ j := Nat.pow_le_pow_right (by omega) (by omega)
        have h₁ := bp'.mem.byte_lt (bp.data + i)
        have h₂ := bp.mem.byte_lt (bp.data + i)
        rw [Nat.testBit_lt_two_pow (by omega), Nat.testBit_lt_two_pow (by omega)]

theorem psidOctets_lt {psid o : Nat} (h : o ∈ psidOctets psid) : o < 256 := by
  unfold psidOctets at h
  split at h
  · simp only [List.mem_cons, List.not_mem_nil, or_false] at h
    omega
  · split at h
    · simp only [List.mem_cons, List.not_mem_nil, or_false] at h
      omega
    · split at h
      · simp only [List.mem_cons, List.not_mem_nil, or_false] at h
        omega
      · rw [List.mem_singleton] at h
        omega

theorem elementOctets_lt {inc : Bool} {id value o : Nat} (hid : id < 256) (hv : value < 256)
    (h : o ∈ elementOctets inc id value) : o < 256 := by
  unfold elementOctets at h
  split at h
  · simp only [List.mem_cons, List.not_mem_nil, or_false] at h
    omega
  · cases h

theorem loadOctets_lt (src : Mem) {w : Header}
    (hlt : w.weidOpts.incLoadExt = true → w.chanLoadLen < 0x4000) {o : Nat}
    (h : o ∈ loadOctets src w) : o < 256 := by
  unfold loadOctets at h
  split at h
  · rename_i hinc
    simp only [List.mem_cons, List.mem_append] at h
    rcases h with rfl | h | h
    · omega
    · unfold loadLenOctets at h
      split at h
      · exact lengthOctets_lt (hlt hinc) h
      · cases h
    · exact Mem.octets_lt h
  · cases h

theorem headerOctets_lt (src : Mem) {w : Header}
    (hlt : w.weidOpts.incLoadExt = true → w.chanLoadLen < 0x4000) {o : Nat}
    (h : o ∈ headerOctets src w) : o < 256 := by
  have hqty : w.weidQty < 256 := by
    have h₁ := Bool.toNat_le w.weidOpts.incRateExt
    have h₂ := Bool.toNat_le w.weidOpts.incChanExt
    have h₃ := Bool.toNat_le w.weidOpts.incPwrExt
    have h₄ := Bool.toNat_le w.weidOpts.incLoadExt
    unfold Header.weidQty
    omega
  simp only [headerOctets, nHeaderOctets, List.cons_append, List.mem_cons, List.mem_append] at h
  rcases h with rfl | h | rfl | h
  · exact w.written.data_lt
  · split at h
    · simp only [weidOctets, List.mem_cons, List.mem_append] at h
      rcases h with rfl | h | h | h | h
      · exact hqty
      · exact elementOctets_lt (by decide) w.rate.toNat_lt h
      · exact elementOctets_lt (by decide) w.pwr.toNat_lt h
      · exact elementOctets_lt (by decide) w.chan.toNat_lt h
      · exact loadOctets_lt src hlt h
    · cases h
  · exact w.tpid.toNat_lt
  · unfold transportOctets at h
    split at h
    · exact psidOctets_lt h
    · have h₁ := w.srcPort.toNat_lt
      have h₂ := w.dstPort.toNat_lt
      simp only [List.mem_cons, List.not_mem_nil, or_false] at h
      omega

/-- The buffers have room: the header abuf behind its 20 octets, the payload abuf in front. -/
structure Room (src : Mem) (w : Header) (abp payload : Abuf) (n : Nat) : Prop where
  block : 20 + (headerOctets src w).length ≤ abp.size
  head : 0 < payload.head
  headroom : payload.head + (headerOctets src w).length + (lengthOctets n).length ≤ payload.data

/-- What `wsmp_encode` makes of a payload. -/
theorem wsmpEncode_spec (src : Mem) {w : Header} {abp payload : Abuf} {os : List Nat}
    (htpid : w.tpid.toNat ≤ 3)
    (hload : w.weidOpts.incLoadExt = true → w.chanLoadLen < 0x4000) (hpos : 0 < os.length)
    (hlt : os.length < 0x4000) (hc : Carries payload os)
    (hroom : Room src w abp payload os.length) :
    Carries (wsmpEncode src w abp payload).2
        (headerOctets src w ++ (lengthOctets os.length ++ os)) ∧
      (wsmpEncode src w abp payload).1 =
        (headerOctets src w ++ (lengthOctets os.length ++ os)).length := by
  have hfe := and_fe w.tpid.toNat_lt
  have hsize := hroom.block
  have hheadroom := hroom.headroom
  have hne : os ≠ [] := List.ne_nil_of_length_pos hpos
  have hhne : headerOctets src w ≠ [] := by simp [headerOctets]
  rw [wsmpEncode, if_neg (by omega), encodeWsm2016]
  simp only
  rw [if_neg (by omega)]
  -- the header
  have hput := put_putHeader src w (abufReset abp 20) rfl hload
    (by change abp.head + 20 + _ ≤ abp.head + abp.size; omega)
  obtain ⟨hh, -, hhtail, -, hhdata⟩ :=
    (hput.carries rfl rfl fun o ho => headerOctets_lt src hload ho).abufTrim hhne
  set hdr := abufTrim (putHeader src w (abufReset abp 20)) with hhdr
  have hlen : hdr.tail + 1 - hdr.data = (headerOctets src w).length := by omega
  have hhoctets : hdr.mem.octets hdr.data (hdr.tail + 1 - hdr.data) = headerOctets src w := by
    rw [hlen]
    exact Mem.holds_iff_octets.mp hh.holds
  -- the payload and its length
  obtain ⟨hp, hp0, hptail, hphead, hpdata⟩ := hc.abufTrim hne
  set pl := abufTrim payload with hpl
  have hbits : abufBitsLen pl = ((8 * os.length : Nat) : Int) := by
    simp only [abufBitsLen, hp.headspace, hp0]
    omega
  have hstart : pl.startPos = 8 * pl.data := by
    rw [startPos, hp.headspace]
    omega
  have hoctets : (8 * os.length + 7) / 8 = os.length := by omega
  obtain ⟨hpush, hphs⟩ := asnPushEncodedLen_spec pl hpos hlt (by rw [hp.headspace]; omega)
    (hphead.symm ▸ hroom.head) (by omega)
  rw [asnPushLen_eq hbits, hoctets]
  obtain ⟨hwithLen, hldata⟩ := hp.pushed hpush hphs fun o ho => lengthOctets_lt hlt ho
  set lp := (asnPushEncodedLen pl os.length).2 with hlp
  have hlhead : lp.head = payload.head := hpush.head.trans hphead
  have hlstart : lp.startPos = 8 * lp.data := by
    rw [startPos, hwithLen.headspace]
    omega
  -- the header in front
  obtain ⟨hmerge, hmhs⟩ := abufMergeSecond_spec hdr lp (by omega) hphs
    (hlhead.symm ▸ hroom.head) (by omega)
  rw [hhoctets] at hmerge
  obtain ⟨hall, hadata⟩ := hwithLen.pushed hmerge hmhs fun o ho => headerOctets_lt src hload ho
  refine ⟨hall, ?_⟩
  have ht := hmerge.tail.trans hpush.tail
  have htbl := hmerge.tailBitsLeft.trans (hpush.tailBitsLeft.trans hp0)
  rw [abufByteLen, htbl, ht, if_pos (by decide)]
  simp only [List.length_append]
  omega

end SatComm.Wsmp
