import SatComm.Wsmp.Bounds

/-!
# From `wsmp_encode` to `wsmp_decode`

The parser gives back what the writer was given exactly when four things hold. The option
indicator is not set without elements (the writer sets it and never clears it). A channel load
is neither empty, since its length is then not written, nor `0x2000` octets or more, since bit
13 of the length is lost. The payload is shorter than `0x2000` octets, for the same reason. The
TPID is 0, or it is 1 and the first octet of the payload cannot be taken for a count: the writer
announces elements behind the length and writes none. Ports never come back: the writer spends
one octet on each, the parser takes two.

Every failure but the lost bit is a shift. The parser never goes backwards, so it is enough to
see that it ends up behind the payload's first octet.
-/

namespace SatComm.Wsmp

open Bits Asnbuf

/-! ## PSIDs -/

theorem psidFieldSize_eq {val : Nat} (h : val < 256) :
    psidFieldSize val =
      if 0xe0 ≤ val then 4 else if 0xc0 ≤ val then 3 else if 0x80 ≤ val then 2 else 1 := by
  interval_cases val <;> rfl

/-- The value of a PSID tells its size. -/
theorem wsmPsidPcodedLen_decode (m : Mem) (p : Nat) :
    wsmPsidPcodedLen (wsmpDecodePsid m p) = psidFieldSize (m.byte p) := by
  have h₀ := m.byte_lt p
  have h₁ := m.byte_lt (p + 1)
  have h₂ := m.byte_lt (p + 2)
  have h₃ := m.byte_lt (p + 3)
  have hsize := psidFieldSize_eq h₀
  unfold wsmpDecodePsid wsmPsidPcodedLen
  by_cases h4 : 0xe0 ≤ m.byte p
  · rw [if_pos h4] at hsize
    rw [hsize]
    simp only [Nat.shiftLeft_eq]
    rw [if_pos (by omega)]
  · rw [if_neg h4] at hsize
    by_cases h3 : 0xc0 ≤ m.byte p
    · rw [if_pos h3] at hsize
      rw [hsize]
      simp only [Nat.shiftLeft_eq]
      rw [if_neg (by omega), if_pos (by omega)]
    · rw [if_neg h3] at hsize
      by_cases h2 : 0x80 ≤ m.byte p
      · rw [if_pos h2] at hsize
        rw [hsize]
        simp only [Nat.shiftLeft_eq]
        rw [if_neg (by omega), if_neg (by omega), if_pos (by omega)]
      · rw [if_neg h2] at hsize
        rw [hsize]
        simp only
        rw [if_neg (by omega), if_neg (by omega), if_neg (by omega)]

/-- A PSID that was written is read back. -/
theorem wsmpDecodePsid_of_holds {m : Mem} {p psid : Nat} (hmax : psid ≤ maxPsid)
    (h : m.Holds p (psidOctets psid)) : wsmpDecodePsid m p = psid := by
  have h₀ := m.byte_lt p
  have hsize := psidFieldSize_eq h₀
  have hmax' : psid ≤ 0x1020407f := hmax
  unfold psidOctets at h
  unfold wsmpDecodePsid
  split at h
  · simp only [Mem.holds_cons, Nat.shiftRight_eq_div_pow] at h
    obtain ⟨e₀, e₁, e₂, e₃, -⟩ := h
    have e₂' : m.byte (p + 2) = _ := e₂
    have e₃' : m.byte (p + 3) = _ := e₃
    rw [if_pos (by omega)] at hsize
    rw [hsize]
    simp only [Nat.shiftLeft_eq]
    omega
  · split at h
    · simp only [Mem.holds_cons, Nat.shiftRight_eq_div_pow] at h
      obtain ⟨e₀, e₁, e₂, -⟩ := h
      have e₂' : m.byte (p + 2) = _ := e₂
      rw [if_neg (by omega), if_pos (by omega)] at hsize
      rw [hsize]
      simp only [Nat.shiftLeft_eq]
      omega
    · split at h
      · simp only [Mem.holds_cons, Nat.shiftRight_eq_div_pow] at h
        rw [if_neg (by omega), if_neg (by omega), if_pos (by omega)] at hsize
        rw [hsize]
        simp only [Nat.shiftLeft_eq]
        omega
      · simp only [Mem.holds_cons] at h
        rw [if_neg (by omega), if_neg (by omega), if_neg (by omega)] at hsize
        rw [hsize]
        exact h.1

theorem psidFieldSize_of_holds {m : Mem} {p psid : Nat} (hmax : psid ≤ maxPsid)
    (h : m.Holds p (psidOctets psid)) : psidFieldSize (m.byte p) = (psidOctets psid).length := by
  rw [← wsmPsidPcodedLen_decode, wsmpDecodePsid_of_holds hmax h, length_psidOctets]

/-! ## Elements that were written -/

/-- One optional element with a one-octet value. -/
theorem elements_inc {inc : Bool} {id v : Nat} (set : Nat → WsmpData → WsmpData) {mc : Msg}
    (n : Nat)
    (hel : mc.at_ 0 = id → element mc = (false, valueElement (mc.consult [mc.abuf.data]) set))
    (h : mc.abuf.mem.Holds mc.abuf.data (elementOctets inc id v)) :
    ∃ mc', elements (inc.toNat + n) mc = elements n mc' ∧
      mc'.abuf = { mc.abuf with data := mc.abuf.data + (elementOctets inc id v).length } ∧
      mc'.wsmp = if inc then set v mc.wsmp else mc.wsmp := by
  cases inc with
  | false => exact ⟨mc, by simp, rfl, rfl⟩
  | true =>
    simp only [elementOctets, if_true] at h ⊢
    obtain ⟨h₀, h₁, h₂, -⟩ := h
    have hwalk := walks_valueElement (mc.consult [mc.abuf.data]) set
    have hlen : (mc.consult [mc.abuf.data]).at_ 1 = 1 := h₁
    have hval : (mc.consult [mc.abuf.data]).at_ 2 = v := h₂
    refine ⟨valueElement (mc.consult [mc.abuf.data]) set, ?_, ?_, ?_⟩
    · rw [Bool.toNat_true, Nat.add_comm, elements, hel h₀]
    · rw [hwalk.abuf, hlen]
      rfl
    · change set ((mc.consult [mc.abuf.data]).at_ 2) mc.wsmp = _
      rw [hval]

/-- The values of the elements, put where they belong. -/
def Header.values (w : Header) (d : WsmpData) : WsmpData :=
  { d with
    rate := if w.weidOpts.incRateExt then w.rate.toNat else d.rate
    pwr := if w.weidOpts.incPwrExt then w.pwr.toNat else d.pwr
    chan := if w.weidOpts.incChanExt then w.chan.toNat else d.chan }

/-- The elements up to the channel load. -/
theorem elements_weids (src : Mem) (w : Header) {mc : Msg}
    (h : mc.abuf.mem.Holds mc.abuf.data (weidOctets src w)) :
    ∃ mc', elements w.weidQty mc = elements w.weidOpts.incLoadExt.toNat mc' ∧
      mc'.abuf.mem = mc.abuf.mem ∧ mc'.abuf.tail = mc.abuf.tail ∧
      mc'.abuf.data + (loadOctets src w).length = mc.abuf.data + (weidOctets src w).length ∧
      mc'.abuf.mem.Holds mc'.abuf.data (loadOctets src w) ∧ mc'.wsmp = w.values mc.wsmp := by
  rw [weidOctets, Mem.holds_append, Mem.holds_append, Mem.holds_append] at h
  obtain ⟨hrate, hpwr, hchan, hload⟩ := h
  have hqty : w.weidQty = w.weidOpts.incRateExt.toNat + (w.weidOpts.incPwrExt.toNat +
      (w.weidOpts.incChanExt.toNat + w.weidOpts.incLoadExt.toNat)) := by
    unfold Header.weidQty
    omega
  obtain ⟨mc₁, e₁, a₁, s₁⟩ := elements_inc (fun v d => { d with rate := v })
    (w.weidOpts.incPwrExt.toNat + (w.weidOpts.incChanExt.toNat + w.weidOpts.incLoadExt.toNat))
    (fun hid => by simp [element, hid]) hrate
  have hpwr' : mc₁.abuf.mem.Holds mc₁.abuf.data
      (elementOctets w.weidOpts.incPwrExt 4 w.pwr.toNat) := by
    rw [a₁]
    exact hpwr
  obtain ⟨mc₂, e₂, a₂, s₂⟩ := elements_inc (fun v d => { d with pwr := v })
    (w.weidOpts.incChanExt.toNat + w.weidOpts.incLoadExt.toNat)
    (fun hid => by simp [element, hid]) hpwr'
  have hchan' : mc₂.abuf.mem.Holds mc₂.abuf.data
      (elementOctets w.weidOpts.incChanExt 15 w.chan.toNat) := by
    rw [a₂, a₁]
    exact hchan
  obtain ⟨mc₃, e₃, a₃, s₃⟩ := elements_inc (fun v d => { d with chan := v })
    w.weidOpts.incLoadExt.toNat (fun hid => by simp [element, hid]) hchan'
  have hdata : mc₃.abuf.data = mc.abuf.data +
      (elementOctets w.weidOpts.incRateExt 16 w.rate.toNat).length +
      (elementOctets w.weidOpts.incPwrExt 4 w.pwr.toNat).length +
      (elementOctets w.weidOpts.incChanExt 15 w.chan.toNat).length := by
    rw [a₃, a₂, a₁]
  have hmem : mc₃.abuf.mem = mc.abuf.mem := by rw [a₃, a₂, a₁]
  refine ⟨mc₃, by rw [hqty, e₁, e₂, e₃], hmem, by rw [a₃, a₂, a₁], ?_, ?_, ?_⟩
  · rw [hdata]
    simp only [weidOctets, List.length_append]
    omega
  · rw [hmem, hdata]
    exact hload
  · rw [s₃, s₂, s₁]
    unfold Header.values
    cases w.weidOpts.incRateExt <;> cases w.weidOpts.incPwrExt <;>
      cases w.weidOpts.incChanExt <;> rfl

/-- The elements are read as they were written, but for the channel load: its length is taken
from behind its identifier at `p`, whatever stands there. -/
structure ElementsRead (m : Mem) (w : Header) (src : Mem) (mc' : Msg) (tpidAt : Nat) : Prop where
  rate : w.weidOpts.incRateExt = true → mc'.wsmp.rate = w.rate.toNat
  pwr : w.weidOpts.incPwrExt = true → mc'.wsmp.pwr = w.pwr.toNat
  chan : w.weidOpts.incChanExt = true → mc'.wsmp.chan = w.chan.toNat
  noLoad : w.weidOpts.incLoadExt = false → mc'.abuf.data = tpidAt
  load : w.weidOpts.incLoadExt = true → ∃ p, p + (loadOctets src w).length = tpidAt ∧
    m.Holds p (loadOctets src w) ∧
    mc'.wsmp.chanLoadLen = (lenValue m (p + 1) % 2 ^ 32).toNat ∧
    mc'.wsmp.chanLoadPtr = lenNext m (p + 1) ∧
    mc'.abuf.data = (lenNext m (p + 1) + lenValue m (p + 1)).toNat

theorem element_load {mc : Msg} (h : mc.at_ 0 = 23) :
    element mc = (false, loadElement (mc.consult [mc.abuf.data])) := by
  simp [element, h]

theorem elementsRead_elements (src : Mem) (w : Header) (mc : Msg)
    (h : mc.abuf.mem.Holds mc.abuf.data (weidOctets src w)) :
    ElementsRead mc.abuf.mem w src (elements w.weidQty mc)
      (mc.abuf.data + (weidOctets src w).length) := by
  obtain ⟨mc', he, hmem, -, hdata, hload, hwsmp⟩ := elements_weids src w h
  rw [he]
  cases hinc : w.weidOpts.incLoadExt with
  | false =>
    have hnil : loadOctets src w = [] := by simp [loadOctets, hinc]
    rw [hnil, List.length_nil, Nat.add_zero] at hdata
    simp only [Bool.toNat_false, elements]
    refine ⟨fun h => ?_, fun h => ?_, fun h => ?_, fun _ => hdata, fun h => ?_⟩
    · rw [hwsmp]
      simp [Header.values, h]
    · rw [hwsmp]
      simp [Header.values, h]
    · rw [hwsmp]
      simp [Header.values, h]
    · rw [hinc] at h
      cases h
  | true =>
    have hcons : loadOctets src w =
        23 :: (loadLenOctets w.chanLoadLen ++ src.octets w.chanLoadPtr w.chanLoadLen) := by
      simp [loadOctets, hinc]
    have hid : mc'.at_ 0 = 23 := by
      rw [hcons] at hload
      exact hload.1
    obtain ⟨hwalk, hset, -⟩ := walks_loadElement (mc'.consult [mc'.abuf.data])
    have habuf : (mc'.consult [mc'.abuf.data]).abuf = mc'.abuf := rfl
    rw [habuf, hmem] at hwalk hset
    have hw : (mc'.consult [mc'.abuf.data]).wsmp = w.values mc.wsmp := hwsmp
    simp only [Bool.toNat_true, elements, element_load hid]
    refine ⟨fun h => ?_, fun h => ?_, fun h => ?_, fun h => ?_, fun _ => ?_⟩
    · rw [hset, hw]
      simp [Header.values, h]
    · rw [hset, hw]
      simp [Header.values, h]
    · rw [hset, hw]
      simp [Header.values, h]
    · rw [hinc] at h
      cases h
    · refine ⟨mc'.abuf.data, hdata, hmem ▸ hload, by rw [hset], by rw [hset], hwalk.data⟩

/-! ## The N-header -/

section message

variable {src : Mem} {w : Header} {mc : Msg} {rest : List Nat}

/-- Where the TPID octet was written. -/
def tpidAt (src : Mem) (w : Header) (a : Nat) : Nat := a + (nHeaderOctets src w).length

theorem weidQty_le (w : Header) : w.weidQty ≤ 4 := by
  have h₁ := Bool.toNat_le w.weidOpts.incRateExt
  have h₂ := Bool.toNat_le w.weidOpts.incChanExt
  have h₃ := Bool.toNat_le w.weidOpts.incPwrExt
  have h₄ := Bool.toNat_le w.weidOpts.incLoadExt
  unfold Header.weidQty
  omega

theorem inc_of_weidQty_eq_zero {w : Header} (h : w.weidQty = 0) :
    w.weidOpts.incRateExt = false ∧ w.weidOpts.incChanExt = false ∧
      w.weidOpts.incPwrExt = false ∧ w.weidOpts.incLoadExt = false := by
  unfold Header.weidQty at h
  refine ⟨?_, ?_, ?_, ?_⟩
  · exact Bool.toNat_eq_zero.mp (by omega)
  · exact Bool.toNat_eq_zero.mp (by omega)
  · exact Bool.toNat_eq_zero.mp (by omega)
  · exact Bool.toNat_eq_zero.mp (by omega)

/-- An indicator without elements makes the parser take the TPID octet for a count. -/
def Stale (w : Header) : Prop := w.nHeader.optionIndicator = true ∧ w.weidQty = 0

theorem takeNHeader_cases (htpid : w.tpid.toNat ≤ 3)
    (h : mc.abuf.mem.Holds mc.abuf.data (headerOctets src w ++ rest)) :
    (Stale w ∧ tpidAt src w mc.abuf.data < tpidPos mc.abuf.mem mc.abuf.data) ∨
      (¬ Stale w ∧
        ElementsRead mc.abuf.mem w src (takeNHeader mc) (tpidAt src w mc.abuf.data)) := by
  rw [headerOctets, List.append_assoc, Mem.holds_append] at h
  obtain ⟨hn, ht⟩ := h
  have hbyte : mc.abuf.mem.byte mc.abuf.data = w.written.data := hn.1
  have hoct : NHeader.ofOctet (mc.abuf.mem.byte mc.abuf.data) = w.written := by
    rw [hbyte, NHeader.ofOctet_data]
  by_cases hqty : w.weidQty = 0
  · have hlen : (nHeaderOctets src w).length = 1 := by simp [nHeaderOctets, hqty]
    have hwritten : w.written = w.nHeader := by simp [Header.written, hqty]
    have hat : tpidAt src w mc.abuf.data = mc.abuf.data + 1 := by rw [tpidAt, hlen]
    rw [hlen] at ht
    obtain ⟨h₁, h₂, h₃, h₄⟩ := inc_of_weidQty_eq_zero hqty
    cases hopt : w.nHeader.optionIndicator with
    | true =>
      refine .inl ⟨⟨hopt, hqty⟩, ?_⟩
      rw [hat, tpidPos, hoct, hwritten, if_pos hopt]
      apply lt_extNext
      have htp : mc.abuf.mem.byte (mc.abuf.data + 1) = w.tpid.toNat := ht.1
      omega
    | false =>
      have hfresh : ¬ Stale w := by
        rintro ⟨hs, -⟩
        rw [hopt] at hs
        cases hs
      refine .inr ⟨hfresh, ?_⟩
      have hwalk := walks_takeNHeader mc
      refine ⟨fun h => ?_, fun h => ?_, fun h => ?_, fun _ => ?_, fun h => ?_⟩
      · rw [h₁] at h
        cases h
      · rw [h₃] at h
        cases h
      · rw [h₂] at h
        cases h
      · rw [hwalk.data, tpidPos, hoct, hwritten, hopt, hat]
        simp
      · rw [h₄] at h
        cases h
  · refine .inr ⟨fun hs => hqty hs.2, ?_⟩
    have hopt : w.written.optionIndicator = true := by simp [Header.written, hqty]
    have hle := weidQty_le w
    rw [nHeaderOctets, if_pos hqty] at hn
    obtain ⟨-, hcount, hweids⟩ := hn
    have hver := walks_takeVersion mc
    set mc₁ := (takeVersion mc).setWsmp fun d =>
      { d with nHeader := NHeader.ofOctet (mc.abuf.mem.byte mc.abuf.data) } with hmc₁
    have heq : takeNHeader mc = wsmpDecodeWaveElementExtension mc₁ 0 := by
      unfold takeNHeader
      simp only [hoct, hopt, if_true, hmc₁]
    obtain ⟨hlenw, hval, -, -⟩ := walks_parseLength mc₁
    have hd₁ : mc₁.abuf.data = mc.abuf.data + 1 := hver.data
    have hm₁ : mc₁.abuf.mem = mc.abuf.mem := hver.mem
    rw [hd₁, hm₁] at hlenw hval
    have hcases := len_cases mc.abuf.mem (mc.abuf.data + 1)
    have hnext : lenNext mc.abuf.mem (mc.abuf.data + 1) = mc.abuf.data + 2 := by omega
    have hvalue : (lenValue mc.abuf.mem (mc.abuf.data + 1)).toNat = w.weidQty := by omega
    have hd₂ : (parseLength mc₁).2.abuf.data = mc.abuf.data + 2 := hlenw.data.trans hnext
    have hm₂ : (parseLength mc₁).2.abuf.mem = mc.abuf.mem := hlenw.mem.trans hm₁
    have hread := elementsRead_elements src w (parseLength mc₁).2 (by
      rw [hd₂, hm₂]
      exact hweids)
    rw [hd₂, hm₂] at hread
    have hpos : tpidAt src w mc.abuf.data = mc.abuf.data + 2 + (weidOctets src w).length := by
      rw [tpidAt, nHeaderOctets, if_pos hqty]
      simp only [List.length_cons]
      omega
    rw [heq, wsmpDecodeWaveElementExtension, if_pos rfl, hpos]
    simp only [hval, hvalue]
    exact hread

end message

/-! ## What the elements of the T-header do to the channel load -/

/-- The channel load is as before, or its length was refused, or it lies between `first` and
`next`. -/
def LoadKept (mc mc' : Msg) (first next : Nat) : Prop :=
  (mc'.wsmp.chanLoadLen = mc.wsmp.chanLoadLen ∧ mc'.wsmp.chanLoadPtr = mc.wsmp.chanLoadPtr) ∨
    mc'.wsmp.chanLoadLen = 2 ^ 32 - 1 ∨
    (first ≤ mc'.wsmp.chanLoadPtr ∧ mc'.wsmp.chanLoadPtr + mc'.wsmp.chanLoadLen ≤ next)

theorem LoadKept.trans {a b c : Msg} {f f' n n' : Nat} (h : LoadKept a b f n)
    (h' : LoadKept b c f' n') (hf : f ≤ f') (hn : n ≤ n') : LoadKept a c f n' := by
  rcases h' with ⟨hl, hp⟩ | h' | h'
  · unfold LoadKept at *
    rw [hl, hp]
    rcases h with h | h | h
    · exact .inl h
    · exact .inr (.inl h)
    · exact .inr (.inr ⟨h.1, by omega⟩)
  · exact .inr (.inl h')
  · exact .inr (.inr ⟨by omega, h'.2⟩)

theorem loadKept_element (mc : Msg) :
    LoadKept mc (element mc).2 (mc.abuf.data + 2) (elemNext mc.abuf.mem mc.abuf.data) := by
  rcases element_cases mc with ⟨-, set, he, hset⟩ | ⟨h23, he⟩ | ⟨-, he⟩ | ⟨-, -, he⟩
  · rw [he]
    exact .inl ⟨(hset _ _).2.1, (hset _ _).2.2⟩
  · obtain ⟨hwalk, hwsmp, -⟩ := walks_loadElement (mc.consult [mc.abuf.data])
    have habuf : (mc.consult [mc.abuf.data]).abuf = mc.abuf := rfl
    have hnext := (element_spec mc).1.data
    rw [he] at hnext ⊢
    rw [hwalk.data, habuf] at hnext
    rw [habuf] at hwsmp
    have hlen := len_cases mc.abuf.mem (mc.abuf.data + 1)
    have hb := mc.abuf.mem.byte_lt (mc.abuf.data + 1)
    right
    rw [hwsmp]
    simp only
    by_cases hneg : lenValue mc.abuf.mem (mc.abuf.data + 1) = -1
    · left
      rw [hneg]
      decide
    · right
      omega
  · rw [he]
    exact .inl ⟨rfl, rfl⟩
  · obtain ⟨-, hwsmp, -⟩ := walks_unknownElement (mc.consult [mc.abuf.data])
    rw [he]
    left
    rw [hwsmp]
    exact ⟨rfl, rfl⟩

theorem loadKept_elements (n : Nat) (mc : Msg) :
    LoadKept mc (elements n mc) (mc.abuf.data + 2) (elemsNext mc.abuf.mem n mc.abuf.data) := by
  induction n generalizing mc with
  | zero => exact .inl ⟨rfl, rfl⟩
  | succ n ih =>
    obtain ⟨hwalk, hstop, -, -⟩ := element_spec mc
    have hkept := loadKept_element mc
    have hle := le_elemNext mc.abuf.mem mc.abuf.data
    have hle' := le_elemsNext mc.abuf.mem n (elemNext mc.abuf.mem mc.abuf.data)
    rw [elements, elemsNext, ← hstop]
    rcases he : element mc with ⟨stop, mc'⟩
    rw [he] at hwalk hkept hstop
    cases stop with
    | true =>
      rcases element_cases mc with ⟨-, set, he', -⟩ | ⟨-, he'⟩ | ⟨-, he'⟩ | ⟨-, -, he'⟩
      · rw [he] at he'
        cases he'
      · rw [he] at he'
        cases he'
      · rw [he] at he'
        rw [(Prod.mk.inj he').2]
        exact .inl ⟨rfl, rfl⟩
      · rw [he] at he'
        cases he'
    | false =>
      have hrest := ih mc'
      rw [hwalk.data, hwalk.mem] at hrest
      exact hkept.trans hrest (by omega) hle'

theorem loadKept_extension (mc : Msg) :
    LoadKept mc (wsmpDecodeWaveElementExtension mc 0) (mc.abuf.data + 3)
      (extNext mc.abuf.mem mc.abuf.data) := by
  obtain ⟨hlen, hval, hwsmp, -⟩ := walks_parseLength mc
  rw [wsmpDecodeWaveElementExtension, if_pos rfl]
  simp only [hval]
  by_cases hneg : lenValue mc.abuf.mem mc.abuf.data = -1
  · left
    rw [hneg]
    change (parseLength mc).2.wsmp.chanLoadLen = _ ∧ (parseLength mc).2.wsmp.chanLoadPtr = _
    rw [hwsmp]
    exact ⟨rfl, rfl⟩
  · have hkept := loadKept_elements (lenValue mc.abuf.mem mc.abuf.data).toNat (parseLength mc).2
    have hcases := len_cases mc.abuf.mem mc.abuf.data
    rw [hlen.data, hlen.mem] at hkept
    have hfirst : LoadKept mc (parseLength mc).2 (mc.abuf.data + 3)
        (extNext mc.abuf.mem mc.abuf.data) := by
      left
      rw [hwsmp]
      exact ⟨rfl, rfl⟩
    exact hfirst.trans hkept (by omega) le_rfl

/-- The elements of the T-header come behind the payload's length. -/
theorem loadKept_decodeLength (mc : Msg) :
    LoadKept mc (decodeLength mc) (lenNext mc.abuf.mem mc.abuf.data + 3)
      (decodeLength mc).abuf.data := by
  obtain ⟨mc', heq, hlen, hwsmp, -⟩ := decodeLength_eq mc
  obtain ⟨hwalk, -, -⟩ := decodeLength_spec mc
  by_cases hodd : mc.wsmp.tpid % 2 = 1
  · have hkept := loadKept_extension mc'
    rw [hlen.data, hlen.mem] at hkept
    rw [hwalk.data, if_pos hodd, heq, if_pos hodd]
    unfold LoadKept at *
    rwa [hwsmp] at hkept
  · rw [heq, if_neg hodd]
    left
    rw [hwsmp]
    exact ⟨rfl, rfl⟩

/-- Without elements behind the length nothing else changes. -/
theorem decodeLength_wsmp {mc : Msg}
    (h : mc.wsmp.tpid % 2 = 0 ∨ 192 ≤ mc.abuf.mem.byte (lenNext mc.abuf.mem mc.abuf.data)) :
    (decodeLength mc).wsmp = mc.wsmp := by
  obtain ⟨mc', heq, hlen, hwsmp, -⟩ := decodeLength_eq mc
  rw [heq]
  split
  · rename_i hodd
    have hb : 192 ≤ mc.abuf.mem.byte (lenNext mc.abuf.mem mc.abuf.data) := by omega
    obtain ⟨-, hval, hw, -⟩ := walks_parseLength mc'
    have hcases := len_cases mc.abuf.mem (lenNext mc.abuf.mem mc.abuf.data)
    have hneg : (parseLength mc').1 = -1 := by
      rw [hval, hlen.data, hlen.mem]
      omega
    rw [wsmpDecodeWaveElementExtension, if_pos rfl]
    simp only [hneg]
    exact hw.trans hwsmp
  · exact hwsmp

/-! ## The whole message -/

/-- The parser gives back the description and the payload. The window is the payload's place:
it holds the octets and lies in the message, which is `total` octets long. -/
structure Recovers (src : Mem) (w : Header) (os : List Nat) (total : Nat) (mc : Msg) : Prop where
  result : (wsmpDecode mc).1 = 0
  rate : w.weidOpts.incRateExt = true → (wsmpDecode mc).2.wsmp.rate = w.rate.toNat
  pwr : w.weidOpts.incPwrExt = true → (wsmpDecode mc).2.wsmp.pwr = w.pwr.toNat
  chan : w.weidOpts.incChanExt = true → (wsmpDecode mc).2.wsmp.chan = w.chan.toNat
  load : w.weidOpts.incLoadExt = true →
    (wsmpDecode mc).2.wsmp.chanLoadLen = w.chanLoadLen ∧
      mc.abuf.mem.octets (wsmpDecode mc).2.wsmp.chanLoadPtr w.chanLoadLen =
        src.octets w.chanLoadPtr w.chanLoadLen
  tpid : (wsmpDecode mc).2.wsmp.tpid = w.tpid.toNat
  psid : w.tpid.toNat < 2 → (wsmpDecode mc).2.wsmp.psid = w.psid
  ports : 2 ≤ w.tpid.toNat → (wsmpDecode mc).2.wsmp.srcPort = w.srcPort.toNat ∧
    (wsmpDecode mc).2.wsmp.dstPort = w.dstPort.toNat
  payloadLen : (wsmpDecode mc).2.l3PayloadLen = os.length
  payload : mc.abuf.mem.Holds (wsmpDecode mc).2.l3Payload os
  window : (wsmpDecode mc).2.l3Payload + os.length ≤ mc.abuf.data + total

/-- What a description and a payload must be like. -/
structure RoundTrips (w : Header) (os : List Nat) : Prop where
  fresh : w.nHeader.optionIndicator = true → w.weidQty ≠ 0
  load : w.weidOpts.incLoadExt = true → 0 < w.chanLoadLen ∧ w.chanLoadLen < 0x2000
  len : os.length < 0x2000
  tpid : w.tpid.toNat = 0 ∨ (w.tpid.toNat = 1 ∧ 0xc0 ≤ os.headD 0)

theorem takeNHeader_at_tpid (mc : Msg) :
    (takeNHeader mc).at_ 0 = mc.abuf.mem.byte (tpidPos mc.abuf.mem mc.abuf.data) := by
  have hwalk := walks_takeNHeader mc
  rw [Msg.at_, hwalk.mem, hwalk.data, Nat.add_zero]

/-- The header of a message of the 2016 format, from its TPID on. -/
theorem wsmpDecodeHeader_tpid {mc : Msg} (hin : mc.abuf.data + 1 ≤ mc.abuf.tail)
    (hv : version mc.abuf.mem mc.abuf.data = 3)
    (hsub : (NHeader.ofOctet (mc.abuf.mem.byte mc.abuf.data)).subtype = 0) :
    wsmpDecodeHeader mc =
      if tpidPos mc.abuf.mem mc.abuf.data + 1 ≤ mc.abuf.tail ∧
          mc.abuf.mem.byte (tpidPos mc.abuf.mem mc.abuf.data) ≤ 5 ∧
          (2 ≤ mc.abuf.mem.byte (tpidPos mc.abuf.mem mc.abuf.data) →
            tpidPos mc.abuf.mem mc.abuf.data + 5 ≤ mc.abuf.tail) then
        (0, decodeLength (takeId (takeNHeader mc)))
      else (-1, (wsmpDecodeHeader mc).2) := by
  have hwalk := walks_takeNHeader mc
  have heq := decodeTransport_eq (takeNHeader mc)
  rwa [hwalk.data, hwalk.tail, takeNHeader_at_tpid, ← wsmpDecodeHeader_new hin hv hsub] at heq

/-- `wsmp_decode` on a message of the 2016 format. -/
theorem wsmpDecode_new {mc : Msg} (hin : mc.abuf.data + 1 ≤ mc.abuf.tail)
    (hv : version mc.abuf.mem mc.abuf.data = 3)
    (hsub : (NHeader.ofOctet (mc.abuf.mem.byte mc.abuf.data)).subtype = 0) :
    (wsmpDecode mc).1 = 0 ↔
      tpidPos mc.abuf.mem mc.abuf.data + 1 ≤ mc.abuf.tail ∧
        mc.abuf.mem.byte (tpidPos mc.abuf.mem mc.abuf.data) ≤ 5 ∧
        (2 ≤ mc.abuf.mem.byte (tpidPos mc.abuf.mem mc.abuf.data) →
          tpidPos mc.abuf.mem mc.abuf.data + 5 ≤ mc.abuf.tail) := by
  set m := mc.abuf.mem with hm
  set q := tpidPos m mc.abuf.data with hq
  have heq := wsmpDecodeHeader_tpid hin hv hsub
  rw [← hm, ← hq] at heq
  by_cases hok : q + 1 ≤ mc.abuf.tail ∧ m.byte q ≤ 5 ∧ (2 ≤ m.byte q → q + 5 ≤ mc.abuf.tail)
  · rw [if_pos hok] at heq
    have hz : (wsmpDecodeHeader mc).1 = 0 := by rw [heq]
    rw [wsmpDecode_of_zero hz]
    exact ⟨fun _ => hok, fun _ => rfl⟩
  · rw [if_neg hok] at heq
    have hneg : (wsmpDecodeHeader mc).1 = -1 := by rw [heq]
    rw [wsmpDecode_of_neg hneg]
    exact ⟨fun h => absurd h (by decide), fun h => absurd h hok⟩

/-- What a successful run leaves behind. -/
theorem wsmpDecode_new_eq {mc : Msg} (hin : mc.abuf.data + 1 ≤ mc.abuf.tail)
    (hv : version mc.abuf.mem mc.abuf.data = 3)
    (hsub : (NHeader.ofOctet (mc.abuf.mem.byte mc.abuf.data)).subtype = 0)
    (hres : (wsmpDecode mc).1 = 0) :
    (wsmpDecode mc).2.wsmp = (decodeLength (takeId (takeNHeader mc))).wsmp ∧
      (wsmpDecode mc).2.l3Payload = transportNext mc.abuf.mem (tpidPos mc.abuf.mem mc.abuf.data) ∧
      (wsmpDecode mc).2.l3PayloadLen =
        lenValue mc.abuf.mem (idNext mc.abuf.mem (tpidPos mc.abuf.mem mc.abuf.data)) := by
  have hok := (wsmpDecode_new hin hv hsub).mp hres
  have hwalk := walks_takeNHeader mc
  have heq := wsmpDecodeHeader_tpid hin hv hsub
  rw [if_pos hok] at heq
  have hz : (wsmpDecodeHeader mc).1 = 0 := by rw [heq]
  obtain ⟨hw, -, hpl⟩ := transport_spec (takeNHeader mc) (by
    rw [takeNHeader_at_tpid, hwalk.data, hwalk.tail]
    exact hok.2.2)
  rw [hwalk.data, hwalk.mem] at hw hpl
  rw [wsmpDecode_of_zero hz, heq]
  exact ⟨rfl, hw.data, hpl⟩

/-- A description of the 2016 format, written with its payload and received. The tail may be the
last octet, as the writer leaves it, or lie behind. -/
structure Sent (src : Mem) (w : Header) (os : List Nat) (mc : Msg) : Prop where
  version : w.nHeader.version = 3
  subtype : w.nHeader.subtype = 0
  tpid : w.tpid.toNat ≤ 3
  loadLen : w.weidOpts.incLoadExt = true → w.chanLoadLen < 0x4000
  pos : 0 < os.length
  lt : os.length < 0x4000
  holds : mc.abuf.mem.Holds mc.abuf.data (headerOctets src w ++ (lengthOctets os.length ++ os))
  tail : mc.abuf.data + (headerOctets src w ++ (lengthOctets os.length ++ os)).length ≤
    mc.abuf.tail + 1

/-- Where the payload was written. -/
def payloadAt (src : Mem) (w : Header) (n a : Nat) : Nat :=
  tpidAt src w a + 1 + (transportOctets w).length + (lengthOctets n).length

namespace Sent

variable {src : Mem} {w : Header} {os : List Nat} {mc : Msg}

/-- The parts from the TPID octet on. -/
theorem parts (h : Sent src w os mc) :
    mc.abuf.mem.byte (tpidAt src w mc.abuf.data) = w.tpid.toNat ∧
      mc.abuf.mem.Holds (tpidAt src w mc.abuf.data + 1) (transportOctets w) ∧
      mc.abuf.mem.Holds (tpidAt src w mc.abuf.data + 1 + (transportOctets w).length)
        (lengthOctets os.length) ∧
      mc.abuf.mem.Holds (payloadAt src w os.length mc.abuf.data) os := by
  have hh := h.holds
  rw [headerOctets, List.append_assoc, Mem.holds_append, List.cons_append, Mem.holds_cons,
    Mem.holds_append, Mem.holds_append] at hh
  exact ⟨hh.2.1, hh.2.2.1, hh.2.2.2.1, hh.2.2.2.2⟩

theorem total (h : Sent src w os mc) :
    mc.abuf.data + (headerOctets src w ++ (lengthOctets os.length ++ os)).length =
      payloadAt src w os.length mc.abuf.data + os.length := by
  have _ := h.pos
  simp only [headerOctets, payloadAt, tpidAt, List.length_append, List.length_cons]
  omega

theorem ofOctet (h : Sent src w os mc) :
    NHeader.ofOctet (mc.abuf.mem.byte mc.abuf.data) = w.written := by
  have hbyte : mc.abuf.mem.byte mc.abuf.data = w.written.data := h.holds.1
  rw [hbyte, NHeader.ofOctet_data]

theorem version_eq (h : Sent src w os mc) : Wsmp.version mc.abuf.mem mc.abuf.data = 3 := by
  have hbyte : mc.abuf.mem.byte mc.abuf.data = w.written.data := h.holds.1
  have hw : w.written.version = 3 := by
    unfold Header.written
    split
    · exact h.version
    · exact h.version
  have hmod : w.written.data &&& 0x7 = w.written.data % 8 :=
    Nat.and_two_pow_sub_one_eq_mod _ 3
  rw [Wsmp.version, hbyte, hmod, NHeader.data, hw]
  have h3 : ((3 : Fin 8) : Nat) = 3 := rfl
  omega

theorem subtype_eq (h : Sent src w os mc) :
    (NHeader.ofOctet (mc.abuf.mem.byte mc.abuf.data)).subtype = 0 := by
  rw [h.ofOctet]
  unfold Header.written
  split
  · exact h.subtype
  · exact h.subtype

theorem transport_pos (w : Header) : 0 < (transportOctets w).length := by
  unfold transportOctets
  split
  · rw [length_psidOctets]
    unfold wsmPsidPcodedLen
    split
    · decide
    · split
      · decide
      · split <;> decide
  · simp

theorem inRange (h : Sent src w os mc) : mc.abuf.data + 1 ≤ mc.abuf.tail := by
  have htail := h.tail
  have hpos := h.pos
  have htr := transport_pos w
  simp only [headerOctets, nHeaderOctets, List.length_append, List.length_cons] at htail
  omega

end Sent

/-- The elements of a description that round trips: the TPID octet is found and the channel
load is the one that was written. -/
theorem ElementsRead.good {m : Mem} {w : Header} {src : Mem} {mc' : Msg} {t : Nat}
    (h : ElementsRead m w src mc' t)
    (hload : w.weidOpts.incLoadExt = true → 0 < w.chanLoadLen ∧ w.chanLoadLen < 0x2000) :
    mc'.abuf.data = t ∧ (w.weidOpts.incLoadExt = true →
      mc'.wsmp.chanLoadLen = w.chanLoadLen ∧
        m.octets mc'.wsmp.chanLoadPtr w.chanLoadLen = src.octets w.chanLoadPtr w.chanLoadLen) := by
  cases hinc : w.weidOpts.incLoadExt with
  | false => exact ⟨h.noLoad hinc, fun h => by cases h⟩
  | true =>
    obtain ⟨hpos, hlt⟩ := hload hinc
    obtain ⟨p, hp, hholds, hlen, hptr, hdata⟩ := h.load hinc
    have hcons : loadOctets src w =
        23 :: (lengthOctets w.chanLoadLen ++ src.octets w.chanLoadPtr w.chanLoadLen) := by
      simp [loadOctets, loadLenOctets, hinc, hpos]
    rw [hcons, Mem.holds_cons, Mem.holds_append] at hholds
    have hparse := parse_lengthOctets (by omega : w.chanLoadLen < 0x4000) hholds.2.1
    rw [Nat.mod_eq_of_lt hlt] at hparse
    have hval : lenValue m (p + 1) = w.chanLoadLen := by rw [lenValue, hparse]
    have hnext : lenNext m (p + 1) = p + 1 + (lengthOctets w.chanLoadLen).length := by
      rw [lenNext, hparse]
    rw [hval, hnext] at hdata
    rw [hval] at hlen
    rw [hnext] at hptr
    rw [hcons, List.length_cons, List.length_append, Mem.length_octets] at hp
    refine ⟨by omega, fun _ => ⟨by omega, ?_⟩⟩
    rw [hptr]
    have := Mem.holds_iff_octets.mp hholds.2.2
    rwa [Mem.length_octets] at this

section roundTrip

variable {src : Mem} {w : Header} {os : List Nat} {mc : Msg}

theorem recovers_of_roundTrips (h : Sent src w os mc) (hc : RoundTrips w os) :
    Recovers src w os (headerOctets src w ++ (lengthOctets os.length ++ os)).length mc := by
  have hwalk := walks_takeNHeader mc
  have hpos := h.pos
  have htail := h.tail
  have htotal := h.total
  obtain ⟨hbyte, htransport, hlength, hpayload⟩ := h.parts
  have hread : ElementsRead mc.abuf.mem w src (takeNHeader mc) (tpidAt src w mc.abuf.data) := by
    rcases takeNHeader_cases h.tpid h.holds with ⟨hs, -⟩ | ⟨-, hread⟩
    · exact absurd hs.2 (hc.fresh hs.1)
    · exact hread
  obtain ⟨hq, hload⟩ := hread.good hc.load
  rw [hwalk.data] at hq
  set T := tpidAt src w mc.abuf.data with hT
  have htpid := hc.tpid
  have hpsidOctets : transportOctets w = psidOctets w.psid := if_pos (by omega)
  rw [hpsidOctets] at htransport hlength
  have hstart : payloadAt src w os.length mc.abuf.data =
      T + 1 + (psidOctets w.psid).length + (lengthOctets os.length).length := by
    rw [payloadAt, hpsidOctets]
  -- positions of the T-header
  have hid : idNext mc.abuf.mem T = T + 1 + (psidOctets w.psid).length := by
    rw [idNext, if_neg (by omega), psidFieldSize_of_holds w.psid.2 htransport]
  have hparse := parse_lengthOctets h.lt hlength
  rw [Nat.mod_eq_of_lt hc.len, ← hstart, ← hid] at hparse
  have hnext : lenNext mc.abuf.mem (idNext mc.abuf.mem T) =
      payloadAt src w os.length mc.abuf.data := by rw [lenNext, hparse]
  have hfirst : w.tpid.toNat % 2 = 0 ∨
      192 ≤ mc.abuf.mem.byte (payloadAt src w os.length mc.abuf.data) := by
    rcases htpid with h0 | ⟨-, hhead⟩
    · exact .inl (by omega)
    · right
      cases os with
      | nil => simp at hpos
      | cons o os =>
        rw [hpayload.1]
        exact hhead
  have hres : (wsmpDecode mc).1 = 0 := by
    rw [wsmpDecode_new h.inRange h.version_eq h.subtype_eq, hq, hbyte]
    exact ⟨by omega, by omega, fun h2 => by omega⟩
  obtain ⟨hwsmp, hl3, hl3len⟩ := wsmpDecode_new_eq h.inRange h.version_eq h.subtype_eq hres
  rw [hq] at hl3 hl3len
  have hat : (takeNHeader mc).at_ 0 = w.tpid.toNat := by
    rw [Msg.at_, hwalk.mem, hwalk.data, hq, Nat.add_zero, hbyte]
  obtain ⟨hidwalk, hidwsmp⟩ := takeId_spec (takeNHeader mc) (by rw [hat]; omega)
  rw [hwalk.mem, hwalk.data, hq] at hidwalk
  rw [if_neg (by omega), hat, hwalk.mem, hwalk.data, hq,
    wsmpDecodePsid_of_holds w.psid.2 htransport] at hidwsmp
  have hsame : (decodeLength (takeId (takeNHeader mc))).wsmp = (takeId (takeNHeader mc)).wsmp := by
    apply decodeLength_wsmp
    rw [hidwalk.data, hidwalk.mem, hwalk.mem, hnext, hidwsmp]
    exact hfirst
  rw [hsame, hidwsmp] at hwsmp
  have hend : (wsmpDecode mc).2.l3Payload = payloadAt src w os.length mc.abuf.data := by
    rw [hl3, transportNext, hbyte, hnext]
    split
    · have hcases := len_cases mc.abuf.mem (payloadAt src w os.length mc.abuf.data)
      have hneg : lenValue mc.abuf.mem (payloadAt src w os.length mc.abuf.data) = -1 := by omega
      rw [extNext, hneg]
      change lenNext mc.abuf.mem (payloadAt src w os.length mc.abuf.data) = _
      omega
    · rfl
  refine ⟨hres, ?_, ?_, ?_, ?_, ?_, ?_, ?_, ?_, ?_, ?_⟩
  · rw [hwsmp]
    exact hread.rate
  · rw [hwsmp]
    exact hread.pwr
  · rw [hwsmp]
    exact hread.chan
  · rw [hwsmp]
    exact hload
  · rw [hwsmp]
  · rw [hwsmp]
    exact fun _ => rfl
  · intro h2
    omega
  · rw [hl3len, lenValue, hparse]
  · rw [hend]
    exact hpayload
  · rw [hend]
    omega

/-! ### Only then -/

/-- Facts of a message that was given back, by positions. -/
structure Found (m : Mem) (w : Header) (n q : Nat) : Prop where
  tpid : m.byte q = w.tpid.toNat
  psid : w.tpid.toNat < 2 → wsmpDecodePsid m (q + 1) = w.psid
  len : lenValue m (idNext m q) = n

theorem Recovers.found (h : Sent src w os mc) {total : Nat} (hr : Recovers src w os total mc) :
    Found mc.abuf.mem w os.length (tpidPos mc.abuf.mem mc.abuf.data) := by
  have hok := (wsmpDecode_new h.inRange h.version_eq h.subtype_eq).mp hr.result
  obtain ⟨hwsmp, -, hl3len⟩ := wsmpDecode_new_eq h.inRange h.version_eq h.subtype_eq hr.result
  have hwalk := walks_takeNHeader mc
  have hat : (takeNHeader mc).at_ 0 = mc.abuf.mem.byte (tpidPos mc.abuf.mem mc.abuf.data) := by
    rw [Msg.at_, hwalk.mem, hwalk.data, Nat.add_zero]
  have hports : 2 ≤ (takeNHeader mc).at_ 0 →
      (takeNHeader mc).abuf.data + 5 ≤ (takeNHeader mc).abuf.tail := by
    rw [hat, hwalk.data, hwalk.tail]
    exact hok.2.2
  obtain ⟨-, htr, -⟩ := transport_spec (takeNHeader mc) hports
  obtain ⟨-, hidwsmp⟩ := takeId_spec (takeNHeader mc) hports
  rw [hat, hwalk.mem, hwalk.data] at hidwsmp
  simp only [WsmpData.transport, Prod.mk.injEq] at htr
  have htpid : mc.abuf.mem.byte (tpidPos mc.abuf.mem mc.abuf.data) = w.tpid.toNat := by
    rw [← hr.tpid, hwsmp, htr.2.2.1, hidwsmp]
    split <;> rfl
  refine ⟨htpid, fun h2 => ?_, ?_⟩
  · rw [← hr.psid h2, hwsmp, htr.2.2.2.1, hidwsmp, if_neg (by omega)]
  · rw [← hr.payloadLen, hl3len]

/-- The parser is behind what identifies the receiver and at least one octet of the length. -/
theorem Found.le_next {m : Mem} {n q : Nat} (h : Found m w n q) :
    q + 1 + (if w.tpid.toNat < 2 then (psidOctets w.psid).length else 4) + 1 ≤
      lenNext m (idNext m q) := by
  have hlen := len_cases m (idNext m q)
  have hval := h.len
  have hid : idNext m q =
      q + 1 + (if w.tpid.toNat < 2 then (psidOctets w.psid).length else 4) := by
    unfold idNext
    rw [h.tpid]
    by_cases h2 : w.tpid.toNat < 2
    · rw [if_neg (by omega), if_pos h2, ← wsmPsidPcodedLen_decode, h.psid h2, length_psidOctets]
    · rw [if_pos (by omega), if_neg h2]
  omega

theorem lenNext_le_transportNext (m : Mem) (q : Nat) :
    lenNext m (idNext m q) ≤ transportNext m q := by
  have hext := le_extNext m (lenNext m (idNext m q))
  unfold transportNext
  split
  · exact hext
  · exact le_rfl

/-- The octets of the receiver as written, at most. -/
theorem length_transportOctets (w : Header) :
    (transportOctets w).length =
      if w.tpid.toNat < 2 then (psidOctets w.psid).length else 2 := by
  unfold transportOctets
  split <;> rfl

/-- The parser did not take anything of the T-header for an element. -/
theorem Found.not_behind (h : Sent src w os mc)
    (hf : Found mc.abuf.mem w os.length (tpidPos mc.abuf.mem mc.abuf.data))
    (hend : transportNext mc.abuf.mem (tpidPos mc.abuf.mem mc.abuf.data) ≤
      payloadAt src w os.length mc.abuf.data) :
    tpidPos mc.abuf.mem mc.abuf.data ≤ tpidAt src w mc.abuf.data := by
  by_contra hlt
  have hnext := hf.le_next
  have hle := lenNext_le_transportNext mc.abuf.mem (tpidPos mc.abuf.mem mc.abuf.data)
  have hlen := length_lengthOctets os.length
  have htr := length_transportOctets w
  obtain ⟨hbyte, htransport, hlength, -⟩ := h.parts
  unfold payloadAt at hend
  by_cases h2 : w.tpid.toNat < 2
  · rw [if_pos h2] at hnext htr
    by_cases hone : os.length < 0x80
    · rw [if_pos hone] at hlen
      omega
    · rw [if_neg hone] at hlen
      -- the parser is one octet off and took the first octet of the PSID for the TPID
      have hq : tpidPos mc.abuf.mem mc.abuf.data = tpidAt src w mc.abuf.data + 1 := by omega
      have htpid := hf.tpid
      have hpsid := hf.psid h2
      have hsize := wsmPsidPcodedLen_decode mc.abuf.mem (tpidPos mc.abuf.mem mc.abuf.data + 1)
      rw [hpsid, ← length_psidOctets] at hsize
      have hpsidOctets : transportOctets w = psidOctets w.psid := if_pos h2
      rw [hpsidOctets] at htransport hlength
      have hk := psidFieldSize_of_holds w.psid.2 htransport
      rw [← hq, htpid, psidFieldSize_eq w.tpid.toNat_lt, if_neg (by omega), if_neg (by omega),
        if_neg (by omega)] at hk
      rw [← hk, ← hq] at hlength
      have he := encodedLen_eq h.lt
      have hl : lengthOctets os.length = [encodedLen os.length / 256, encodedLen os.length % 256] :=
        if_neg hone
      rw [hl] at hlength
      have hb : mc.abuf.mem.byte (tpidPos mc.abuf.mem mc.abuf.data + 1) =
        encodedLen os.length / 256 := hlength.1
      rw [← hk, psidFieldSize_eq (mc.abuf.mem.byte_lt _), hb] at hsize
      by_cases h1 : 0xe0 ≤ encodedLen os.length / 256
      · rw [if_pos h1] at hsize
        omega
      · rw [if_neg h1] at hsize
        by_cases h3 : 0xc0 ≤ encodedLen os.length / 256
        · rw [if_pos h3] at hsize
          omega
        · rw [if_neg h3, if_pos (by omega)] at hsize
          omega
  · rw [if_neg h2] at hnext htr
    split at hlen <;> omega

theorem Recovers.end_le (h : Sent src w os mc)
    (hr : Recovers src w os (headerOctets src w ++ (lengthOctets os.length ++ os)).length mc) :
    transportNext mc.abuf.mem (tpidPos mc.abuf.mem mc.abuf.data) ≤
      payloadAt src w os.length mc.abuf.data := by
  obtain ⟨-, hl3, -⟩ := wsmpDecode_new_eq h.inRange h.version_eq h.subtype_eq hr.result
  have hwindow := hr.window
  have htotal := h.total
  rw [hl3] at hwindow
  omega

/-- The channel load of a message that was given back. A longer one would have to be found once
more behind the T-header, and then ends behind the message. -/
theorem Recovers.load_bounds (h : Sent src w os mc)
    (hr : Recovers src w os (headerOctets src w ++ (lengthOctets os.length ++ os)).length mc)
    (hread : ElementsRead mc.abuf.mem w src (takeNHeader mc) (tpidAt src w mc.abuf.data))
    (hinc : w.weidOpts.incLoadExt = true) : 0 < w.chanLoadLen ∧ w.chanLoadLen < 0x2000 := by
  have hf := hr.found h
  have hend := hr.end_le h
  have hbehind := hf.not_behind h hend
  have hwalk := walks_takeNHeader mc
  obtain ⟨p, hp, hholds, hlen, -, hdata⟩ := hread.load hinc
  rw [hwalk.data] at hdata
  have hlt := h.loadLen hinc
  have hbyte := h.parts.1
  have htp := h.tpid
  by_cases hzero : w.chanLoadLen = 0
  · have hone : loadOctets src w = [23] := by
      simp [loadOctets, loadLenOctets, hinc, hzero, Mem.octets]
    rw [hone, List.length_singleton] at hp
    rw [← hp] at hbyte
    have hcases := len_cases mc.abuf.mem (p + 1)
    omega
  · refine ⟨by omega, ?_⟩
    by_contra hbig
    have hcons : loadOctets src w =
        23 :: (lengthOctets w.chanLoadLen ++ src.octets w.chanLoadPtr w.chanLoadLen) := by
      have hpos : 0 < w.chanLoadLen := by omega
      simp [loadOctets, loadLenOctets, hinc, hpos]
    rw [hcons, Mem.holds_cons, Mem.holds_append] at hholds
    have hparse := parse_lengthOctets hlt hholds.2.1
    have hval : lenValue mc.abuf.mem (p + 1) = ((w.chanLoadLen % 0x2000 : Nat) : Int) := by
      rw [lenValue, hparse]
    have hnext : lenNext mc.abuf.mem (p + 1) =
        p + 1 + (lengthOctets w.chanLoadLen).length := by rw [lenNext, hparse]
    rw [hval, hnext] at hdata
    rw [hval] at hlen
    rw [hcons, List.length_cons, List.length_append, Mem.length_octets] at hp
    -- where the final value of the length comes from
    have hok := (wsmpDecode_new h.inRange h.version_eq h.subtype_eq).mp hr.result
    obtain ⟨hwsmp, -, -⟩ := wsmpDecode_new_eq h.inRange h.version_eq h.subtype_eq hr.result
    have hat : (takeNHeader mc).at_ 0 = mc.abuf.mem.byte (tpidPos mc.abuf.mem mc.abuf.data) := by
      rw [Msg.at_, hwalk.mem, hwalk.data, Nat.add_zero]
    have hports : 2 ≤ (takeNHeader mc).at_ 0 →
        (takeNHeader mc).abuf.data + 5 ≤ (takeNHeader mc).abuf.tail := by
      rw [hat, hwalk.data, hwalk.tail]
      exact hok.2.2
    obtain ⟨htw, -, -⟩ := transport_spec (takeNHeader mc) hports
    obtain ⟨hidwalk, hidwsmp⟩ := takeId_spec (takeNHeader mc) hports
    have hkept := loadKept_decodeLength (takeId (takeNHeader mc))
    rw [hidwalk.data, hidwalk.mem, htw.data, hwalk.mem, hwalk.data] at hkept
    have hfinal := (hr.load hinc).1
    have hsame : (takeId (takeNHeader mc)).wsmp.chanLoadLen =
        (takeNHeader mc).wsmp.chanLoadLen := by
      rw [hidwsmp]
      split <;> rfl
    have hle := hf.le_next
    have htr := length_transportOctets w
    have hlen2 := length_lengthOctets os.length
    unfold payloadAt at hend
    unfold LoadKept at hkept
    rw [← hwsmp, hfinal, hsame] at hkept
    have hl : (lengthOctets os.length).length ≤ 2 := by
      rw [hlen2]
      split <;> omega
    rcases hkept with ⟨hk, -⟩ | hk | ⟨hk, hk'⟩
    · omega
    · omega
    · split at hle <;> rename_i h2
      · rw [if_pos h2] at htr
        omega
      · rw [if_neg h2] at htr
        omega

theorem roundTrips_of_recovers (h : Sent src w os mc)
    (hr : Recovers src w os (headerOctets src w ++ (lengthOctets os.length ++ os)).length mc) :
    RoundTrips w os := by
  have hf := hr.found h
  have hend := hr.end_le h
  have hbehind := hf.not_behind h hend
  have hwalk := walks_takeNHeader mc
  have hpos := h.pos
  rcases takeNHeader_cases h.tpid h.holds with ⟨-, hlt⟩ | ⟨hfresh, hread⟩
  · omega
  have hload := hr.load_bounds h hread
  obtain ⟨hq, -⟩ := hread.good hload
  rw [hwalk.data] at hq
  rw [hq] at hf hend
  obtain ⟨hbyte, htransport, hlength, hpayload⟩ := h.parts
  set T := tpidAt src w mc.abuf.data with hT
  have hle := hf.le_next
  have hle' := lenNext_le_transportNext mc.abuf.mem T
  have htr := length_transportOctets w
  have hlen2 := length_lengthOctets os.length
  have hl : (lengthOctets os.length).length ≤ 2 := by
    rw [hlen2]
    split <;> omega
  -- ports take more room than they were given
  have h2 : w.tpid.toNat < 2 := by
    by_contra h2
    rw [if_neg h2] at hle htr
    unfold payloadAt at hend
    omega
  have hpsidOctets : transportOctets w = psidOctets w.psid := if_pos h2
  rw [hpsidOctets] at htransport hlength
  have hid : idNext mc.abuf.mem T = T + 1 + (psidOctets w.psid).length := by
    rw [idNext, if_neg (by omega), psidFieldSize_of_holds w.psid.2 htransport]
  have hparse := parse_lengthOctets h.lt hlength
  rw [← hid] at hparse
  have hval := hf.len
  rw [lenValue, hparse] at hval
  refine ⟨fun hopt hqty => hfresh ⟨hopt, hqty⟩, hload, by omega, ?_⟩
  by_cases h0 : w.tpid.toNat = 0
  · exact .inl h0
  · refine .inr ⟨by omega, ?_⟩
    by_contra hhead
    have hstart : lenNext mc.abuf.mem (idNext mc.abuf.mem T) =
        payloadAt src w os.length mc.abuf.data := by
      rw [lenNext, hparse, payloadAt, hpsidOctets, ← hT, ← hid]
    have hfirst : mc.abuf.mem.byte (payloadAt src w os.length mc.abuf.data) < 192 := by
      cases os with
      | nil => simp at hpos
      | cons o os =>
        rw [hpayload.1]
        simp only [List.headD_cons] at hhead
        omega
    have hext := lt_extNext mc.abuf.mem hfirst
    rw [transportNext, hbyte, if_pos (by omega), hstart] at hend
    omega

/-- `wsmp_decode` on what `wsmp_encode` made of a description and a payload, for every TPID it
does not reject. -/
theorem recovers_iff_roundTrips (abp payload : Abuf) (hversion : w.nHeader.version = 3)
    (hsubtype : w.nHeader.subtype = 0) (htpid : w.tpid.toNat ≤ 5)
    (haccepted : (wsmpEncode src w abp payload).1 ≠ -2)
    (hload : w.weidOpts.incLoadExt = true → w.chanLoadLen < 0x4000) (hpos : 0 < os.length)
    (hlt : os.length < 0x4000) (hcarries : Carries payload os)
    (hroom : Room src w abp payload os.length)
    (hreceived : mc.abuf.mem.Holds mc.abuf.data
      ((wsmpEncode src w abp payload).2.mem.octets (wsmpEncode src w abp payload).2.data
        (wsmpEncode src w abp payload).1.toNat))
    (htail : mc.abuf.data + (wsmpEncode src w abp payload).1.toNat ≤ mc.abuf.tail + 1) :
    Recovers src w os (wsmpEncode src w abp payload).1.toNat mc ↔ RoundTrips w os := by
  have hfe := and_fe w.tpid.toNat_lt
  have hthree : w.tpid.toNat ≤ 3 := by
    by_contra h4
    apply haccepted
    have hsize := hroom.block
    rw [wsmpEncode, if_neg (by omega), encodeWsm2016]
    simp only
    rw [if_pos (by omega)]
  obtain ⟨hout, hlen⟩ := wsmpEncode_spec src hthree hload hpos hlt hcarries hroom
  rw [hlen, Int.toNat_natCast] at hreceived htail ⊢
  rw [Mem.holds_iff_octets.mp hout.holds] at hreceived
  have hsent : Sent src w os mc :=
    ⟨hversion, hsubtype, hthree, hload, hpos, hlt, hreceived, htail⟩
  exact ⟨roundTrips_of_recovers hsent, recovers_of_roundTrips hsent⟩

end roundTrip

/-! ## Two messages -/

/-- The rate element, PSID 0x20 and the TPID given. -/
def exampleHeader (tpid : UInt8) : Header where
  nHeader := ⟨3, false, 0⟩
  srcPort := 0x1234
  dstPort := 0x5678
  weidOpts := ⟨true, false, false, false⟩
  rate := 12
  chan := 0
  pwr := 0
  tpid := tpid
  psid := ⟨0x20, by decide⟩
  chanLoadPtr := 0
  chanLoadLen := 0

/-- An abuf of 64 octets whose message is the `n` octets from the middle on, all of them 0xab. -/
def exampleAbuf (n : Nat) : Abuf where
  mem := fun _ => 0xab
  head := 100
  size := 64
  headHeadspaceBits := 0
  tailBitsLeft := 8
  data := 132
  tail := 132 + n
  end_ := 164
  written := []

/-- What the writer makes of two octets, handed to the parser. -/
def exampleMsg (tpid : UInt8) : Msg :=
  { receivedMsg [] with
    abuf := (wsmpEncode (fun _ => 0) (exampleHeader tpid) (exampleAbuf 0) (exampleAbuf 2)).2 }

theorem recovers_rate_psid :
    Recovers (fun _ => 0) (exampleHeader 0) [0xab, 0xab]
      (wsmpEncode (fun _ => 0) (exampleHeader 0) (exampleAbuf 0) (exampleAbuf 2)).1.toNat
      (exampleMsg 0) :=
  (recovers_iff_roundTrips (exampleAbuf 0) (exampleAbuf 2) rfl rfl (by decide)
    (by decide) (by decide) (by decide) (by decide)
    (show Carries (exampleAbuf 2) [0xab, 0xab] from ⟨rfl, .inl ⟨rfl, rfl⟩, rfl, rfl, trivial⟩)
    ⟨by decide, by decide, by decide⟩
    (Mem.holds_iff_octets.mpr (by rw [Mem.length_octets]; rfl)) (by decide)).mpr
    ⟨by decide, by decide, by decide, .inl rfl⟩

/-- With ports in place of the PSID. -/
theorem not_recovers_ports :
    ¬ Recovers (fun _ => 0) (exampleHeader 2) [0xab, 0xab]
      (wsmpEncode (fun _ => 0) (exampleHeader 2) (exampleAbuf 0) (exampleAbuf 2)).1.toNat
      (exampleMsg 2) := by
  intro h
  have hsrc := (h.ports (by decide)).1
  exact absurd hsrc (by decide +kernel)

end SatComm.Wsmp
