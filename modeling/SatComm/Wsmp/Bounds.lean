import SatComm.Wsmp.Layout

/-!
# What `wsmp_decode` looks at

`headerReach` is one past the last octet of the header that a message announces, look-ahead
included, and `payloadStart` and `announcedLen` give the payload. The parser stays inside the
received range, or reports the message, exactly when the message is not empty and one of three
things holds: the header is refused for what it says; the octets behind the range are those of
a checked pull (the TPID octet, the ports); header and payload lie inside.
-/

namespace SatComm.Wsmp

open Bits Asnbuf

/-! ## What a message announces -/

section announced

variable (m : Mem) (a : Nat)

/-- `ver_octet & 0x7`. -/
def version : Nat := m.byte a &&& 0x7

/-- The formats before 2016: the elements behind the PSID, and the data element behind them. -/
def oldElems : Nat := a + 1 + psidFieldSize (m.byte (a + 1))

def oldData : Nat := elemsNext m 4 (oldElems m a)

def isDataId (id : Nat) : Bool := id == 128 || id == 129

/-- The 2016 format: the octet of the TPID. -/
def tpidPos : Nat :=
  if (NHeader.ofOctet (m.byte a)).optionIndicator then extNext m (a + 1) else a + 1

/-- The header says something that is not supported. -/
def refused : Bool :=
  if version m a = 1 ∨ version m a = 2 then !isDataId (m.byte (oldData m a))
  else if version m a = 3 then
    (NHeader.ofOctet (m.byte a)).subtype != 0 || decide (5 < m.byte (tpidPos m a))
  else true

/-- One past the last octet of the header. -/
def headerReach : Nat :=
  if version m a = 1 ∨ version m a = 2 then
    max (oldElems m a) (max (elemsReach m 4 (oldElems m a))
      (if isDataId (m.byte (oldData m a)) then oldData m a + 3 else oldData m a + 1))
  else if version m a = 3 ∧ (NHeader.ofOctet (m.byte a)).subtype = 0 then
    max (if (NHeader.ofOctet (m.byte a)).optionIndicator then extReach m (a + 1) else a + 1)
      (if m.byte (tpidPos m a) ≤ 5 then transportReach m (tpidPos m a) else tpidPos m a + 1)
  else a + 1

def payloadStart : Nat :=
  if version m a = 3 then transportNext m (tpidPos m a)
  else if m.byte (oldData m a) = 129 then oldData m a + 4 else oldData m a + 3

def announcedLen : Int :=
  if version m a = 3 then lenValue m (idNext m (tpidPos m a))
  else (m.byte (oldData m a + 1) * 256 + m.byte (oldData m a + 2) : Nat)

/-- The TPID octet or the ports lie behind the range that ends at `tail`. -/
def CheckedOutside (tail : Nat) : Prop :=
  version m a = 3 ∧ (tail < tpidPos m a + 1 ∨ (2 ≤ m.byte (tpidPos m a) ∧ tail < tpidPos m a + 5))

instance (tail : Nat) : Decidable (CheckedOutside m a tail) :=
  inferInstanceAs (Decidable (_ ∧ _))

/-- Header and payload lie in the range that ends at `tail`. -/
structure Fits (tail : Nat) : Prop where
  header : headerReach m a ≤ tail
  len : 0 ≤ announcedLen m a
  payload : payloadStart m a + announcedLen m a ≤ tail

theorem fits_iff (tail : Nat) : Fits m a tail ↔ headerReach m a ≤ tail ∧ 0 ≤ announcedLen m a ∧
    payloadStart m a + announcedLen m a ≤ tail :=
  ⟨fun h => ⟨h.header, h.len, h.payload⟩, fun h => ⟨h.1, h.2.1, h.2.2⟩⟩

instance (tail : Nat) : Decidable (Fits m a tail) := decidable_of_iff _ (fits_iff m a tail).symm

theorem le_tpidPos : a + 1 ≤ tpidPos m a := by
  unfold tpidPos
  split
  · exact le_extNext m (a + 1)
  · exact le_rfl

theorem lt_oldData : a < oldData m a := by
  have h := le_elemsNext m 4 (oldElems m a)
  unfold oldData
  unfold oldElems at *
  omega

theorem le_transportNext (q : Nat) : q + 1 ≤ transportNext m q := by
  have hid : q + 1 ≤ idNext m q := by
    unfold idNext
    split <;> omega
  have hlen := le_lenNext m (idNext m q)
  have hext := le_extNext m (lenNext m (idNext m q))
  unfold transportNext
  split <;> omega

theorem le_payloadStart : a ≤ payloadStart m a := by
  have h₁ := le_tpidPos m a
  have h₂ := lt_oldData m a
  have h₃ := le_transportNext m (tpidPos m a)
  unfold payloadStart
  split
  · omega
  · split <;> omega

theorem lt_headerReach : a < headerReach m a := by
  have h₁ := le_tpidPos m a
  unfold headerReach
  split
  · have hpsid : a < oldElems m a := by
      unfold oldElems
      omega
    omega
  · split
    · rename_i hv
      have hone : a < if (NHeader.ofOctet (m.byte a)).optionIndicator then extReach m (a + 1)
          else a + 1 := by
        split
        · have hreach : a + 1 < lenReach m (a + 1) := by
            have := len_cases m (a + 1)
            omega
          unfold extReach
          omega
        · omega
      omega
    · omega

end announced

/-! ## The parser and the announcement -/

/-- The formats before 2016. -/
theorem decodeOldData_spec (mc : Msg) :
    if isDataId (mc.abuf.mem.byte mc.abuf.data) then
      (decodeOldData mc).1 = 0 ∧
        Walks mc (decodeOldData mc).2
          (if mc.abuf.mem.byte mc.abuf.data = 129 then mc.abuf.data + 4 else mc.abuf.data + 3)
          (mc.abuf.data + 3) ∧
        (decodeOldData mc).2.payloadLen =
          (mc.abuf.mem.byte (mc.abuf.data + 1) * 256 + mc.abuf.mem.byte (mc.abuf.data + 2) : Nat)
    else (decodeOldData mc).1 = -1 := by
  have hat : mc.abuf.mem.byte mc.abuf.data = mc.at_ 0 := rfl
  rw [hat]
  split
  · rename_i hid
    simp only [isDataId, Bool.or_eq_true, beq_iff_eq] at hid
    have hwalk : Walks mc ((({ (mc.consult [mc.abuf.data]).consult
        [mc.abuf.data + 2, mc.abuf.data + 1] with
          payloadLen := ((mc.at_ 1 * 256 + mc.at_ 2 : Nat) : Int) } : Msg)).pull 3)
        (mc.abuf.data + 3) (mc.abuf.data + 3) := by
      refine ⟨?_, fun x hx => ?_⟩
      · change { mc.abuf with data := ((mc.abuf.data : Int) + 3).toNat } = _
        congr 1
      · have hx' : x ∈ [mc.abuf.data + 2, mc.abuf.data + 1] ++ ([mc.abuf.data] ++ mc.consulted) := hx
        simp only [List.mem_append, List.mem_cons, List.not_mem_nil, or_false] at hx'
        rcases hx' with hx' | hx' | hx'
        · exact .inr (by omega)
        · exact .inr (by omega)
        · exact .inl hx'
    unfold decodeOldData
    simp only [if_pos hid]
    split
    · have hlast := hwalk.trans (walks_pull _ 1) (by omega)
      rw [hwalk.data] at hlast
      exact ⟨trivial, hlast.mono (by omega), rfl⟩
    · exact ⟨trivial, hwalk, rfl⟩
  · rename_i hid
    simp only [isDataId, Bool.or_eq_true, beq_iff_eq] at hid
    unfold decodeOldData
    simp only [if_neg hid]

/-- The version octet is taken. -/
def takeVersion (mc : Msg) : Msg :=
  ((mc.consult [mc.abuf.data]).setWsmp fun w => { w with protoVersion := mc.at_ 0 &&& 0x7 }).pull 1

theorem walks_takeVersion (mc : Msg) :
    Walks mc (takeVersion mc) (mc.abuf.data + 1) (mc.abuf.data + 1) :=
  walks_takeOctet mc _

/-- Up to the data element of an old message. -/
theorem walks_oldHeader (mc : Msg) :
    Walks mc (wsmpDecodeWaveElementExtension (takePsid (takeVersion mc)) 4)
      (oldData mc.abuf.mem mc.abuf.data)
      (max (oldElems mc.abuf.mem mc.abuf.data)
        (elemsReach mc.abuf.mem 4 (oldElems mc.abuf.mem mc.abuf.data))) := by
  have hver := walks_takeVersion mc
  have hpsid := (takePsid_spec (takeVersion mc)).1
  have hat : (takeVersion mc).at_ 0 = mc.abuf.mem.byte (mc.abuf.data + 1) := by
    rw [Msg.at_, hver.mem, hver.data, Nat.add_zero]
  rw [hver.data, hat] at hpsid
  have helems := (elements_spec 4 (takePsid (takeVersion mc))).1
  rw [hpsid.data, hpsid.mem, hver.mem] at helems
  have htwo := hver.trans hpsid (by omega)
  have hall := htwo.trans helems (by omega)
  refine hall.mono ?_
  unfold oldElems
  omega

/-- A message of the 2016 format up to its TPID octet. -/
def takeNHeader (mc : Msg) : Msg :=
  let nHeader := NHeader.ofOctet (mc.abuf.mem.byte mc.abuf.data)
  let mc := (takeVersion mc).setWsmp fun w => { w with nHeader := nHeader }
  if nHeader.optionIndicator then wsmpDecodeWaveElementExtension mc 0 else mc

theorem walks_takeNHeader (mc : Msg) :
    Walks mc (takeNHeader mc) (tpidPos mc.abuf.mem mc.abuf.data)
      (if (NHeader.ofOctet (mc.abuf.mem.byte mc.abuf.data)).optionIndicator then
        extReach mc.abuf.mem (mc.abuf.data + 1) else mc.abuf.data + 1) := by
  have hver := walks_takeVersion mc
  have hset := hver.trans (walks_setWsmp (takeVersion mc) fun w =>
    { w with nHeader := NHeader.ofOctet (mc.abuf.mem.byte mc.abuf.data) }) (by omega)
  rw [hver.data] at hset
  unfold takeNHeader tpidPos
  simp only
  split
  · have hext := (extension_spec ((takeVersion mc).setWsmp fun w =>
      { w with nHeader := NHeader.ofOctet (mc.abuf.mem.byte mc.abuf.data) })).1
    rw [hset.data, hset.mem] at hext
    refine (hset.trans hext (by omega)).mono ?_
    have hreach := len_cases mc.abuf.mem (mc.abuf.data + 1)
    unfold extReach
    omega
  · exact hset.mono (by omega)

theorem wsmpDecodeHeader_old {mc : Msg} (hin : mc.abuf.data + 1 ≤ mc.abuf.tail)
    (hv : version mc.abuf.mem mc.abuf.data = 1 ∨ version mc.abuf.mem mc.abuf.data = 2) :
    wsmpDecodeHeader mc =
      decodeOldData (wsmpDecodeWaveElementExtension (takePsid (takeVersion mc)) 4) := by
  have hpull : mc.canPull 1 = true := (canPull_iff mc 1).mpr hin
  unfold wsmpDecodeHeader
  simp only
  rw [if_pos hpull]
  exact if_pos hv

theorem wsmpDecodeHeader_new {mc : Msg} (hin : mc.abuf.data + 1 ≤ mc.abuf.tail)
    (hv : version mc.abuf.mem mc.abuf.data = 3)
    (hsub : (NHeader.ofOctet (mc.abuf.mem.byte mc.abuf.data)).subtype = 0) :
    wsmpDecodeHeader mc = decodeTransport (takeNHeader mc) := by
  have hpull : mc.canPull 1 = true := (canPull_iff mc 1).mpr hin
  have hat : mc.at_ 0 = mc.abuf.mem.byte mc.abuf.data := rfl
  have hv' : mc.at_ 0 &&& 0x7 = 3 := hv
  unfold wsmpDecodeHeader takeNHeader
  simp only
  rw [if_pos hpull, if_neg (by omega), if_pos hv', hat, if_neg (by simpa using hsub)]
  split <;> rfl

/-! ### What is refused -/

section refused

variable {m : Mem} {a tail : Nat}

theorem refusedOrOutside_old_iff (hold : version m a = 1 ∨ version m a = 2) :
    refused m a = true ∨ CheckedOutside m a tail ↔ ¬ isDataId (m.byte (oldData m a)) = true := by
  have hinside : ¬ CheckedOutside m a tail := fun h => by
    have := h.1
    omega
  rw [or_iff_left hinside, refused, if_pos hold]
  simp

theorem refusedOrOutside_new_iff (hnew : version m a = 3)
    (hsub : (NHeader.ofOctet (m.byte a)).subtype = 0) :
    refused m a = true ∨ CheckedOutside m a tail ↔
      ¬ (tpidPos m a + 1 ≤ tail ∧ m.byte (tpidPos m a) ≤ 5 ∧
        (2 ≤ m.byte (tpidPos m a) → tpidPos m a + 5 ≤ tail)) := by
  have href : refused m a = true ↔ 5 < m.byte (tpidPos m a) := by
    rw [refused, if_neg (by omega), if_pos hnew, hsub]
    simp
  have hout : CheckedOutside m a tail ↔ tail < tpidPos m a + 1 ∨
      2 ≤ m.byte (tpidPos m a) ∧ tail < tpidPos m a + 5 :=
    and_iff_right hnew
  rw [href, hout]
  omega

end refused

/-! ### The formats -/

section formats

variable {mc : Msg}

/-- Before 2016. -/
theorem oldHeader_spec (hin : mc.abuf.data + 1 ≤ mc.abuf.tail)
    (hold : version mc.abuf.mem mc.abuf.data = 1 ∨ version mc.abuf.mem mc.abuf.data = 2) :
    if isDataId (mc.abuf.mem.byte (oldData mc.abuf.mem mc.abuf.data)) = true then
      (wsmpDecodeHeader mc).1 = 0 ∧
        Walks mc (wsmpDecodeHeader mc).2 (payloadStart mc.abuf.mem mc.abuf.data)
          (headerReach mc.abuf.mem mc.abuf.data) ∧
        (wsmpDecodeHeader mc).2.payloadLen = announcedLen mc.abuf.mem mc.abuf.data
    else (wsmpDecodeHeader mc).1 = -1 := by
  have hne : version mc.abuf.mem mc.abuf.data ≠ 3 := by omega
  rw [wsmpDecodeHeader_old hin hold]
  have hwalk := walks_oldHeader mc
  have hdata := decodeOldData_spec (wsmpDecodeWaveElementExtension (takePsid (takeVersion mc)) 4)
  rw [hwalk.data, hwalk.mem] at hdata
  have hlt := lt_oldData mc.abuf.mem mc.abuf.data
  by_cases hid : isDataId (mc.abuf.mem.byte (oldData mc.abuf.mem mc.abuf.data)) = true
  · rw [if_pos hid] at hdata ⊢
    obtain ⟨hres, hw, hpl⟩ := hdata
    refine ⟨hres, ?_, ?_⟩
    · rw [payloadStart, if_neg hne, headerReach, if_pos hold, if_pos hid]
      exact (hwalk.trans hw hlt.le).mono (by omega)
    · rw [hpl, announcedLen, if_neg hne]
  · rw [if_neg hid] at hdata ⊢
    exact hdata

/-- The 2016 format. -/
theorem newHeader_spec (hin : mc.abuf.data + 1 ≤ mc.abuf.tail)
    (hnew : version mc.abuf.mem mc.abuf.data = 3)
    (hsub : (NHeader.ofOctet (mc.abuf.mem.byte mc.abuf.data)).subtype = 0) :
    let tpid := tpidPos mc.abuf.mem mc.abuf.data
    if tpid + 1 ≤ mc.abuf.tail ∧ mc.abuf.mem.byte tpid ≤ 5 ∧
        (2 ≤ mc.abuf.mem.byte tpid → tpid + 5 ≤ mc.abuf.tail) then
      (wsmpDecodeHeader mc).1 = 0 ∧
        Walks mc (wsmpDecodeHeader mc).2 (payloadStart mc.abuf.mem mc.abuf.data)
          (headerReach mc.abuf.mem mc.abuf.data) ∧
        (wsmpDecodeHeader mc).2.payloadLen = announcedLen mc.abuf.mem mc.abuf.data
    else (wsmpDecodeHeader mc).1 = -1 := by
  intro tpid
  have hold : ¬ (version mc.abuf.mem mc.abuf.data = 1 ∨ version mc.abuf.mem mc.abuf.data = 2) := by
    omega
  rw [wsmpDecodeHeader_new hin hnew hsub]
  have hwalk := walks_takeNHeader mc
  have hat : (takeNHeader mc).at_ 0 = mc.abuf.mem.byte tpid := by
    rw [Msg.at_, hwalk.mem, hwalk.data, Nat.add_zero]
  rw [decodeTransport_eq, hwalk.data, hwalk.tail, hat]
  split_ifs with hok
  · have hports : 2 ≤ (takeNHeader mc).at_ 0 →
        (takeNHeader mc).abuf.data + 5 ≤ (takeNHeader mc).abuf.tail := by
      rw [hat, hwalk.data, hwalk.tail]
      exact hok.2.2
    obtain ⟨hw, -, hpl⟩ := transport_spec (takeNHeader mc) hports
    rw [hwalk.data, hwalk.mem] at hw hpl
    refine ⟨rfl, ?_, ?_⟩
    · have hle := le_tpidPos mc.abuf.mem mc.abuf.data
      rw [payloadStart, if_pos hnew, headerReach, if_neg hold, if_pos ⟨hnew, hsub⟩,
        if_pos hok.2.1]
      exact hwalk.trans hw (by omega)
    · rw [hpl, announcedLen, if_pos hnew]
  · rfl

/-- Other subtypes of the 2016 format, and other versions. -/
theorem otherHeader_spec (hin : mc.abuf.data + 1 ≤ mc.abuf.tail)
    (hold : ¬ (version mc.abuf.mem mc.abuf.data = 1 ∨ version mc.abuf.mem mc.abuf.data = 2))
    (hother : version mc.abuf.mem mc.abuf.data = 3 →
      (NHeader.ofOctet (mc.abuf.mem.byte mc.abuf.data)).subtype ≠ 0) :
    refused mc.abuf.mem mc.abuf.data = true ∧ (wsmpDecodeHeader mc).1 = -1 := by
  have hpull : mc.canPull 1 = true := (canPull_iff mc 1).mpr hin
  have hold' : ¬ (mc.at_ 0 &&& 0x7 = 1 ∨ mc.at_ 0 &&& 0x7 = 2) := hold
  unfold refused wsmpDecodeHeader
  simp only
  rw [if_neg hold, if_pos hpull, if_neg hold']
  by_cases hnew : version mc.abuf.mem mc.abuf.data = 3
  · have hnew' : mc.at_ 0 &&& 0x7 = 3 := hnew
    have hat : mc.at_ 0 = mc.abuf.mem.byte mc.abuf.data := rfl
    rw [if_pos hnew, if_pos hnew', hat, if_pos (hother hnew)]
    exact ⟨by simp [hother hnew], rfl⟩
  · have hnew' : ¬ mc.at_ 0 &&& 0x7 = 3 := hnew
    rw [if_neg hnew, if_neg hnew']
    exact ⟨rfl, rfl⟩

end formats

/-- The result of the header parser, and where it stops when it is not negative. -/
theorem wsmpDecodeHeader_spec (mc : Msg) (hin : mc.abuf.data + 1 ≤ mc.abuf.tail) :
    if refused mc.abuf.mem mc.abuf.data = true ∨
        CheckedOutside mc.abuf.mem mc.abuf.data mc.abuf.tail then
      (wsmpDecodeHeader mc).1 = -1
    else
      (wsmpDecodeHeader mc).1 = 0 ∧
        Walks mc (wsmpDecodeHeader mc).2 (payloadStart mc.abuf.mem mc.abuf.data)
          (headerReach mc.abuf.mem mc.abuf.data) ∧
        (wsmpDecodeHeader mc).2.payloadLen = announcedLen mc.abuf.mem mc.abuf.data := by
  by_cases hold : version mc.abuf.mem mc.abuf.data = 1 ∨ version mc.abuf.mem mc.abuf.data = 2
  · simp only [refusedOrOutside_old_iff hold, ite_not]
    exact oldHeader_spec hin hold
  · by_cases hother : version mc.abuf.mem mc.abuf.data = 3 →
        (NHeader.ofOctet (mc.abuf.mem.byte mc.abuf.data)).subtype ≠ 0
    · obtain ⟨href, hres⟩ := otherHeader_spec hin hold hother
      rw [if_pos (.inl href)]
      exact hres
    · rw [Classical.not_imp, not_not] at hother
      simp only [refusedOrOutside_new_iff hother.1 hother.2, ite_not]
      exact newHeader_spec hin hother.1 hother.2

/-! ## Inside the received range -/

/-- Success means that everything looked at and the reported payload lie in the received range,
and a message that ends before its header does is reported. -/
def DecodesSafely (mc : Msg) : Prop :=
  let res := wsmpDecode mc
  (res.1 = 0 →
    (∀ x ∈ res.2.consulted, mc.abuf.data ≤ x ∧ x < mc.abuf.tail) ∧
      mc.abuf.data ≤ res.2.l3Payload ∧ 0 ≤ res.2.l3PayloadLen ∧
      res.2.l3Payload + res.2.l3PayloadLen ≤ mc.abuf.tail) ∧
    (mc.abuf.tail < headerReach mc.abuf.mem mc.abuf.data → res.1 < 0)

theorem wsmpDecode_of_neg {mc : Msg} (h : (wsmpDecodeHeader mc).1 = -1) :
    (wsmpDecode mc).1 = -3 := by
  unfold wsmpDecode
  simp [h]

theorem wsmpDecode_of_zero {mc : Msg} (h : (wsmpDecodeHeader mc).1 = 0) :
    wsmpDecode mc = (0, { (wsmpDecodeHeader mc).2 with
      l3Payload := (wsmpDecodeHeader mc).2.abuf.data
      l3PayloadLen := (wsmpDecodeHeader mc).2.payloadLen }) := by
  unfold wsmpDecode
  simp [h]

theorem decodesSafely_iff (mc : Msg) (hnew : mc.consulted = [])
    (hrange : mc.abuf.data ≤ mc.abuf.tail) :
    DecodesSafely mc ↔
      mc.abuf.data < mc.abuf.tail ∧
        (refused mc.abuf.mem mc.abuf.data = true ∨
          CheckedOutside mc.abuf.mem mc.abuf.data mc.abuf.tail ∨
          Fits mc.abuf.mem mc.abuf.data mc.abuf.tail) := by
  by_cases hin : mc.abuf.data < mc.abuf.tail
  · have hspec := wsmpDecodeHeader_spec mc hin
    by_cases hneg : refused mc.abuf.mem mc.abuf.data = true ∨
        CheckedOutside mc.abuf.mem mc.abuf.data mc.abuf.tail
    · rw [if_pos hneg] at hspec
      have hres := wsmpDecode_of_neg hspec
      refine ⟨fun _ => ⟨hin, ?_⟩, fun _ => ⟨fun h => ?_, fun _ => ?_⟩⟩
      · rcases hneg with h | h
        · exact .inl h
        · exact .inr (.inl h)
      · rw [hres] at h
        cases h
      · rw [hres]
        decide
    · rw [if_neg hneg] at hspec
      obtain ⟨hres, hwalk, hpl⟩ := hspec
      have hle := le_payloadStart mc.abuf.mem mc.abuf.data
      rw [DecodesSafely, wsmpDecode_of_zero hres]
      simp only [forall_const, hwalk.data, hpl]
      refine ⟨fun ⟨⟨_, _, hlen, hend⟩, hshort⟩ => ⟨hin, .inr (.inr ⟨?_, hlen, hend⟩)⟩, ?_⟩
      · by_contra hcon
        exact absurd (hshort (by omega)) (by decide)
      · rintro ⟨-, h | h | h⟩
        · exact absurd (.inl h) hneg
        · exact absurd (.inr h) hneg
        · have hreach := h.header
          refine ⟨⟨fun x hx => ?_, hle, h.len, h.payload⟩, fun hlt => by omega⟩
          rcases hwalk.consulted x hx with hx | hx
          · rw [hnew] at hx
            cases hx
          · omega
  -- an empty message is not reported
  · have hpull : ¬ mc.canPull 1 = true := fun h => hin ((canPull_iff mc 1).mp h)
    have hres : (wsmpDecodeHeader mc).1 = 0 := by
      unfold wsmpDecodeHeader
      simp only
      rw [if_neg hpull]
    have hlt := lt_headerReach mc.abuf.mem mc.abuf.data
    refine ⟨fun h => ?_, fun h => absurd h.1 hin⟩
    have hneg := h.2 (by omega)
    rw [wsmpDecode_of_zero hres] at hneg
    exact absurd hneg (lt_irrefl _)

/-- A message of the octets `os`, received at address 100 of a memory that is otherwise zero. -/
def receivedMsg (os : List Nat) : Msg where
  abuf :=
    { mem := fun a => UInt8.ofNat (os.getD (a - 100) 0)
      head := 100
      size := 64
      headHeadspaceBits := 0
      tailBitsLeft := 8
      data := 100
      tail := 100 + os.length
      end_ := 164
      written := [] }
  wsmp := ⟨0, ⟨0, false, 0⟩, 0, 0, 0, 0, 0, 0, 0, 0, 0⟩
  payloadLen := 0
  l3Payload := 0
  l3PayloadLen := 0
  consulted := []

/-- Version 3, PSID 0x20 and two octets of payload. -/
theorem decodesSafely_short_message : DecodesSafely (receivedMsg [3, 0, 0x20, 2, 0xAA, 0xBB]) :=
  (decodesSafely_iff (receivedMsg [3, 0, 0x20, 2, 0xAA, 0xBB]) rfl (by decide)).mpr (by decide)

/-- The header ends with the PSID, the length is read behind the range and the result is `0`. -/
theorem not_decodesSafely_without_length : ¬ DecodesSafely (receivedMsg [3, 0, 0x20]) := by
  intro h
  have hneg := h.2 (by decide)
  exact absurd hneg (by decide)

end SatComm.Wsmp
