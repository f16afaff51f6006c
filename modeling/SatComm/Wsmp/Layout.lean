import SatComm.Wsmp.Decode

/-!
# Where the parts of a header lie

Positions only: for a part that starts at `p`, its `Next` is where the parser goes on and its
`Reach` is one past the last octet it looks at. A part never takes the parser backwards. The
step functions of the parser follow these positions (`Walks`).
-/

namespace SatComm.Wsmp

open Bits Asnbuf

/-! ## Lengths -/

section positions

variable (m : Mem)

def lenValue (p : Nat) : Int := (parseAsnVariableLengthEnc m ⟨p, 8⟩).1

def lenNext (p : Nat) : Nat := (parseAsnVariableLengthEnc m ⟨p, 8⟩).2.cp

def lenReach (p : Nat) : Nat := if 128 ≤ m.byte p ∧ m.byte p < 192 then p + 2 else p + 1

/-- A length of one octet, of two octets, or a refused one, which is not passed. -/
theorem len_cases (p : Nat) :
    (m.byte p < 128 ∧ lenValue m p = m.byte p ∧ lenNext m p = p + 1 ∧ lenReach m p = p + 1) ∨
      (128 ≤ m.byte p ∧ m.byte p < 192 ∧ 0 ≤ lenValue m p ∧ lenValue m p < 2 ^ 14 ∧
        lenNext m p = p + 2 ∧ lenReach m p = p + 2) ∨
      (192 ≤ m.byte p ∧ lenValue m p = -1 ∧ lenNext m p = p ∧ lenReach m p = p + 1) := by
  have hb := m.byte_lt (p + 1)
  simp only [lenValue, lenNext, lenReach, parseAsnVariableLengthEnc_aligned]
  by_cases h₁ : m.byte p < 128
  · rw [if_pos h₁, if_neg (by omega)]
    exact .inl ⟨h₁, rfl, rfl, rfl⟩
  · by_cases h₂ : m.byte p < 192
    · rw [if_neg h₁, if_pos h₂, if_pos ⟨by omega, h₂⟩]
      refine .inr (.inl ⟨by omega, h₂, by omega, ?_, rfl, rfl⟩)
      simp only
      omega
    · rw [if_neg h₁, if_neg h₂, if_neg (by omega)]
      exact .inr (.inr ⟨by omega, rfl, rfl, rfl⟩)

/-! ## Elements -/

/-- The identifiers whose value is one octet. -/
def isValueId (id : Nat) : Bool := id == 16 || id == 4 || id == 15

/-- The identifiers that end the elements. -/
def elemStops (p : Nat) : Bool := m.byte p == 128 || m.byte p == 129

def elemNext (p : Nat) : Nat :=
  if isValueId (m.byte p) then p + 2 + m.byte (p + 1)
  else if elemStops m p then p
  else (lenNext m (p + 1) + lenValue m (p + 1)).toNat

def elemReach (p : Nat) : Nat :=
  if isValueId (m.byte p) then p + 3 else if elemStops m p then p + 1 else lenReach m (p + 1)

/-- Where `n` elements lead. -/
def elemsNext : Nat → Nat → Nat
  | 0, p => p
  | n + 1, p => if elemStops m p then p else elemsNext n (elemNext m p)

def elemsReach : Nat → Nat → Nat
  | 0, p => p
  | n + 1, p =>
    if elemStops m p then elemReach m p else max (elemReach m p) (elemsReach n (elemNext m p))

/-- Elements behind their count. -/
def extNext (p : Nat) : Nat := elemsNext m (lenValue m p).toNat (lenNext m p)

def extReach (p : Nat) : Nat := max (lenReach m p) (elemsReach m (lenValue m p).toNat (lenNext m p))

theorem le_elemNext (p : Nat) : p ≤ elemNext m p := by
  unfold elemNext
  split
  · omega
  · split
    · exact le_rfl
    · rcases len_cases m (p + 1) with h | h | h
      · omega
      · omega
      · omega

theorem le_elemsNext (n p : Nat) : p ≤ elemsNext m n p := by
  induction n generalizing p with
  | zero => exact le_rfl
  | succ n ih =>
    rw [elemsNext]
    split
    · exact le_rfl
    · exact (le_elemNext m p).trans (ih _)

theorem le_lenNext (p : Nat) : p ≤ lenNext m p := by
  rcases len_cases m p with h | h | h
  · omega
  · omega
  · omega

theorem le_extNext (p : Nat) : p ≤ extNext m p :=
  (le_lenNext m p).trans (le_elemsNext m _ _)

/-- A count that is not refused is passed. -/
theorem lt_extNext {p : Nat} (h : m.byte p < 192) : p < extNext m p := by
  have hle := le_elemsNext m (lenValue m p).toNat (lenNext m p)
  unfold extNext
  rcases len_cases m p with h' | h' | h'
  · omega
  · omega
  · omega

end positions

/-! ## The parser follows the positions -/

/-- What elements do not touch. -/
def WsmpData.transport (w : WsmpData) : Nat × NHeader × Nat × Nat × Nat × Nat :=
  (w.protoVersion, w.nHeader, w.tpid, w.psid, w.srcPort, w.dstPort)

/-- From `mc` to `mc'` the parser goes on to `next` and looks at nothing from `reach` on. -/
structure Walks (mc mc' : Msg) (next reach : Nat) : Prop where
  abuf : mc'.abuf = { mc.abuf with data := next }
  consulted : ∀ x ∈ mc'.consulted, x ∈ mc.consulted ∨ mc.abuf.data ≤ x ∧ x < reach

theorem Walks.data {mc mc' : Msg} {next reach : Nat} (h : Walks mc mc' next reach) :
    mc'.abuf.data = next := by rw [h.abuf]

theorem Walks.mem {mc mc' : Msg} {next reach : Nat} (h : Walks mc mc' next reach) :
    mc'.abuf.mem = mc.abuf.mem := by rw [h.abuf]

theorem Walks.tail {mc mc' : Msg} {next reach : Nat} (h : Walks mc mc' next reach) :
    mc'.abuf.tail = mc.abuf.tail := by rw [h.abuf]

theorem Walks.trans {a b c : Msg} {n n' r r' : Nat} (h : Walks a b n r) (h' : Walks b c n' r')
    (hle : a.abuf.data ≤ n) : Walks a c n' (max r r') := by
  refine ⟨by rw [h'.abuf, h.abuf], ?_⟩
  intro x hx
  rcases h'.consulted x hx with hx | hx
  · rcases h.consulted x hx with hx | hx
    · exact .inl hx
    · exact .inr ⟨hx.1, by omega⟩
  · rw [h.data] at hx
    exact .inr ⟨by omega, by omega⟩

theorem Walks.mono {a b : Msg} {n r r' : Nat} (h : Walks a b n r) (hr : r ≤ r') :
    Walks a b n r' :=
  ⟨h.abuf, fun x hx => (h.consulted x hx).imp_right fun hx => ⟨hx.1, by omega⟩⟩

theorem walks_parseLength (mc : Msg) :
    Walks mc (parseLength mc).2 (lenNext mc.abuf.mem mc.abuf.data)
        (lenReach mc.abuf.mem mc.abuf.data) ∧
      (parseLength mc).1 = lenValue mc.abuf.mem mc.abuf.data ∧
      (parseLength mc).2.wsmp = mc.wsmp ∧ (parseLength mc).2.payloadLen = mc.payloadLen := by
  refine ⟨⟨rfl, ?_⟩, rfl, rfl, rfl⟩
  intro x hx
  have hx' : x ∈ lengthConsulted mc.abuf.mem mc.abuf.data ++ mc.consulted := hx
  rw [List.mem_append] at hx'
  rcases hx' with hx' | hx'
  · right
    unfold lengthConsulted at hx'
    unfold lenReach
    split at hx'
    · rename_i htwo
      rw [if_pos htwo]
      rw [List.mem_cons, List.mem_singleton] at hx'
      omega
    · rename_i htwo
      rw [if_neg htwo]
      rw [List.mem_singleton] at hx'
      omega
  · exact .inl hx'

theorem toInt32_of_len {len : Int} (h : -1 ≤ len) (h' : len < 2 ^ 14) :
    toInt32 (len % 2 ^ 32).toNat = len := by
  unfold toInt32
  by_cases hneg : len = -1
  · subst hneg
    decide
  · rw [if_pos (by omega)]
    omega

theorem walks_pull (mc : Msg) (n : Int) :
    Walks mc (mc.pull n) (mc.abuf.data + n).toNat mc.abuf.data :=
  ⟨rfl, fun _ hx => .inl hx⟩

theorem walks_consult (mc : Msg) (ps : List Nat) (reach : Nat)
    (h : ∀ x ∈ ps, mc.abuf.data ≤ x ∧ x < reach) :
    Walks mc (mc.consult ps) mc.abuf.data reach := by
  refine ⟨rfl, fun x hx => ?_⟩
  have hx' : x ∈ ps ++ mc.consulted := hx
  rw [List.mem_append] at hx'
  rcases hx' with hx' | hx'
  · exact .inr (h x hx')
  · exact .inl hx'

theorem walks_setWsmp (mc : Msg) (f : WsmpData → WsmpData) :
    Walks mc (mc.setWsmp f) mc.abuf.data mc.abuf.data :=
  ⟨rfl, fun _ hx => .inl hx⟩

theorem walks_valueElement (mc : Msg) (set : Nat → WsmpData → WsmpData) :
    Walks mc (valueElement mc set) (mc.abuf.data + 2 + mc.at_ 1) (mc.abuf.data + 3) := by
  have hconsult := walks_consult mc [mc.abuf.data + 2, mc.abuf.data + 1] (mc.abuf.data + 3)
    (by simp)
  have hset := hconsult.trans (walks_setWsmp _ (set (mc.at_ 2))) le_rfl
  have hall := hset.trans (walks_pull _ (2 + mc.at_ 1)) le_rfl
  have hnext : (((mc.consult [mc.abuf.data + 2, mc.abuf.data + 1]).setWsmp
      (set (mc.at_ 2))).abuf.data + (2 + mc.at_ 1 : Int)).toNat = mc.abuf.data + 2 + mc.at_ 1 := by
    change ((mc.abuf.data : Int) + (2 + mc.at_ 1)).toNat = _
    omega
  rw [hnext] at hall
  refine hall.mono ?_
  change max (max (mc.abuf.data + 3) mc.abuf.data) mc.abuf.data ≤ mc.abuf.data + 3
  omega

/-- An element with a length of its own, up to its body. -/
theorem walks_elementLength (mc : Msg) :
    Walks mc (parseLength (mc.pull 1)).2 (lenNext mc.abuf.mem (mc.abuf.data + 1))
        (lenReach mc.abuf.mem (mc.abuf.data + 1)) ∧
      (parseLength (mc.pull 1)).1 = lenValue mc.abuf.mem (mc.abuf.data + 1) ∧
      (parseLength (mc.pull 1)).2.wsmp = mc.wsmp ∧
      (parseLength (mc.pull 1)).2.payloadLen = mc.payloadLen := by
  obtain ⟨hlen, hval, hwsmp, hpl⟩ := walks_parseLength (mc.pull 1)
  have hdata : (mc.pull 1).abuf.data = mc.abuf.data + 1 := by
    change ((mc.abuf.data : Int) + 1).toNat = _
    omega
  have hmem : (mc.pull 1).abuf.mem = mc.abuf.mem := rfl
  rw [hdata, hmem] at hlen hval
  refine ⟨?_, hval, hwsmp, hpl⟩
  have hpull := walks_pull mc 1
  have hle : mc.abuf.data ≤ (mc.abuf.data + 1 : Int).toNat := by omega
  refine (hpull.trans hlen hle).mono ?_
  have := len_cases mc.abuf.mem (mc.abuf.data + 1)
  omega

theorem walks_loadElement (mc : Msg) :
    Walks mc (loadElement mc)
      (lenNext mc.abuf.mem (mc.abuf.data + 1) + lenValue mc.abuf.mem (mc.abuf.data + 1)).toNat
      (lenReach mc.abuf.mem (mc.abuf.data + 1)) ∧
      (loadElement mc).wsmp =
        { mc.wsmp with
          chanLoadLen := (lenValue mc.abuf.mem (mc.abuf.data + 1) % 2 ^ 32).toNat
          chanLoadPtr := lenNext mc.abuf.mem (mc.abuf.data + 1) } ∧
      (loadElement mc).payloadLen = mc.payloadLen := by
  obtain ⟨hlen, hval, hwsmp, hpl⟩ := walks_elementLength mc
  have hcases := len_cases mc.abuf.mem (mc.abuf.data + 1)
  have hlast : toInt32 (lenValue mc.abuf.mem (mc.abuf.data + 1) % 2 ^ 32).toNat =
      lenValue mc.abuf.mem (mc.abuf.data + 1) := by
    have hb := mc.abuf.mem.byte_lt (mc.abuf.data + 1)
    exact toInt32_of_len (by omega) (by omega)
  unfold loadElement
  simp only [hval, hlen.data]
  refine ⟨?_, ?_, ?_⟩
  · set f : WsmpData → WsmpData := fun w =>
      { w with
        chanLoadLen := (lenValue mc.abuf.mem (mc.abuf.data + 1) % 2 ^ 32).toNat
        chanLoadPtr := lenNext mc.abuf.mem (mc.abuf.data + 1) } with hf
    have hset := hlen.trans (walks_setWsmp _ f) (by omega)
    have hall := hset.trans (walks_pull _ (lenValue mc.abuf.mem (mc.abuf.data + 1))) (by
      rw [hlen.data]
      omega)
    have hd : (((parseLength (mc.pull 1)).2).setWsmp f).abuf.data =
        lenNext mc.abuf.mem (mc.abuf.data + 1) := hlen.data
    have hl : (((parseLength (mc.pull 1)).2).setWsmp f).wsmp.chanLoadLen =
        (lenValue mc.abuf.mem (mc.abuf.data + 1) % 2 ^ 32).toNat := rfl
    rw [hd, hlen.data] at hall
    rw [hl, hlast]
    refine hall.mono ?_
    omega
  · change (fun w : WsmpData => { w with
        chanLoadLen := (lenValue mc.abuf.mem (mc.abuf.data + 1) % 2 ^ 32).toNat
        chanLoadPtr := lenNext mc.abuf.mem (mc.abuf.data + 1) }) (parseLength (mc.pull 1)).2.wsmp = _
    rw [hwsmp]
  · exact hpl

theorem walks_unknownElement (mc : Msg) :
    Walks mc (unknownElement mc)
      (lenNext mc.abuf.mem (mc.abuf.data + 1) + lenValue mc.abuf.mem (mc.abuf.data + 1)).toNat
      (lenReach mc.abuf.mem (mc.abuf.data + 1)) ∧
      (unknownElement mc).wsmp = mc.wsmp ∧ (unknownElement mc).payloadLen = mc.payloadLen := by
  obtain ⟨hlen, hval, hwsmp, hpl⟩ := walks_elementLength mc
  have hcases := len_cases mc.abuf.mem (mc.abuf.data + 1)
  unfold unknownElement
  simp only [hval]
  refine ⟨?_, hwsmp, hpl⟩
  have hall := hlen.trans (walks_pull _ (lenValue mc.abuf.mem (mc.abuf.data + 1))) (by omega)
  rw [hlen.data] at hall
  refine hall.mono ?_
  omega

/-! ### The rounds of the loop -/

theorem isValueId_iff {id : Nat} : isValueId id = true ↔ id = 16 ∨ id = 4 ∨ id = 15 := by
  simp [isValueId, or_assoc]

/-- The kinds of a round. -/
theorem element_cases (mc : Msg) :
    (isValueId (mc.at_ 0) = true ∧ ∃ set, element mc =
        (false, valueElement (mc.consult [mc.abuf.data]) set) ∧
        ∀ v w, (set v w).transport = w.transport ∧ (set v w).chanLoadLen = w.chanLoadLen ∧
          (set v w).chanLoadPtr = w.chanLoadPtr) ∨
      (mc.at_ 0 = 23 ∧ element mc = (false, loadElement (mc.consult [mc.abuf.data]))) ∨
      (elemStops mc.abuf.mem mc.abuf.data = true ∧
        element mc = (true, mc.consult [mc.abuf.data])) ∨
      (isValueId (mc.at_ 0) = false ∧ elemStops mc.abuf.mem mc.abuf.data = false ∧
        element mc = (false, unknownElement (mc.consult [mc.abuf.data]))) := by
  have hat : mc.abuf.mem.byte mc.abuf.data = mc.at_ 0 := rfl
  rw [elemStops, hat]
  by_cases h16 : mc.at_ 0 = 16
  · exact .inl ⟨by rw [h16]; rfl, fun v w => { w with rate := v }, by simp [element, h16],
      fun v w => ⟨rfl, rfl, rfl⟩⟩
  by_cases h4 : mc.at_ 0 = 4
  · exact .inl ⟨by rw [h4]; rfl, fun v w => { w with pwr := v }, by simp [element, h4],
      fun v w => ⟨rfl, rfl, rfl⟩⟩
  by_cases h15 : mc.at_ 0 = 15
  · exact .inl ⟨by rw [h15]; rfl, fun v w => { w with chan := v }, by simp [element, h15],
      fun v w => ⟨rfl, rfl, rfl⟩⟩
  by_cases h23 : mc.at_ 0 = 23
  · exact .inr (.inl ⟨h23, by simp [element, h23]⟩)
  by_cases hstop : mc.at_ 0 = 128 ∨ mc.at_ 0 = 129
  · exact .inr (.inr (.inl ⟨by simpa using hstop, by simp [element, h16, h4, h15, h23, hstop]⟩))
  · refine .inr (.inr (.inr ⟨by simp [isValueId, h16, h4, h15], by simpa using hstop, ?_⟩))
    simp [element, h16, h4, h15, h23, hstop]

/-- One round. -/
theorem element_spec (mc : Msg) :
    Walks mc (element mc).2 (elemNext mc.abuf.mem mc.abuf.data)
        (elemReach mc.abuf.mem mc.abuf.data) ∧
      (element mc).1 = elemStops mc.abuf.mem mc.abuf.data ∧
      (element mc).2.wsmp.transport = mc.wsmp.transport ∧
      (element mc).2.payloadLen = mc.payloadLen := by
  have hid := walks_consult mc [mc.abuf.data] (mc.abuf.data + 1) (by simp)
  have hat : mc.abuf.mem.byte mc.abuf.data = mc.at_ 0 := rfl
  have hlen := len_cases mc.abuf.mem (mc.abuf.data + 1)
  have habuf : (mc.consult [mc.abuf.data]).abuf = mc.abuf := rfl
  unfold elemNext elemReach
  rw [hat]
  rcases element_cases mc with ⟨hval, set, he, hset⟩ | ⟨h23, he⟩ | ⟨hstop, he⟩ | ⟨hval, hstop, he⟩
  · have hns : elemStops mc.abuf.mem mc.abuf.data = false := by
      rw [isValueId_iff] at hval
      simp only [elemStops, hat, Bool.or_eq_false_iff, beq_eq_false_iff_ne]
      omega
    have hwalk := hid.trans (walks_valueElement (mc.consult [mc.abuf.data]) set) le_rfl
    rw [he, if_pos hval, if_pos hval, hns]
    refine ⟨hwalk.mono ?_, rfl, (hset _ _).1, rfl⟩
    rw [habuf]
    omega
  · have hnv : isValueId (mc.at_ 0) = false := by rw [h23]; rfl
    have hns : elemStops mc.abuf.mem mc.abuf.data = false := by
      simp [elemStops, hat, h23]
    obtain ⟨hwalk, hwsmp, hpl⟩ := walks_loadElement (mc.consult [mc.abuf.data])
    rw [he, hnv, hns]
    refine ⟨(hid.trans hwalk le_rfl).mono ?_, rfl, ?_, hpl⟩
    · rw [habuf]
      simp only [Bool.false_eq_true, if_false]
      omega
    · rw [hwsmp]
      rfl
  · have hnv : isValueId (mc.at_ 0) = false := by
      simp only [elemStops, hat, Bool.or_eq_true, beq_iff_eq] at hstop
      rcases hstop with h | h
      · rw [h]
        rfl
      · rw [h]
        rfl
    rw [he, hnv, hstop]
    exact ⟨hid, rfl, rfl, rfl⟩
  · obtain ⟨hwalk, hwsmp, hpl⟩ := walks_unknownElement (mc.consult [mc.abuf.data])
    rw [he, hval, hstop]
    refine ⟨(hid.trans hwalk le_rfl).mono ?_, rfl, ?_, hpl⟩
    · rw [habuf]
      simp only [Bool.false_eq_true, if_false]
      omega
    · rw [hwsmp]
      rfl

theorem elements_spec (n : Nat) (mc : Msg) :
    Walks mc (elements n mc) (elemsNext mc.abuf.mem n mc.abuf.data)
        (elemsReach mc.abuf.mem n mc.abuf.data) ∧
      (elements n mc).wsmp.transport = mc.wsmp.transport ∧
      (elements n mc).payloadLen = mc.payloadLen := by
  induction n generalizing mc with
  | zero => exact ⟨⟨rfl, fun _ hx => .inl hx⟩, rfl, rfl⟩
  | succ n ih =>
    obtain ⟨hwalk, hstop, htr, hpl⟩ := element_spec mc
    rw [elements, elemsNext, elemsReach, ← hstop]
    rcases he : element mc with ⟨stop, mc'⟩
    rw [he] at hwalk htr hpl hstop
    cases stop with
    | true =>
      refine ⟨?_, htr, hpl⟩
      have hnext : elemNext mc.abuf.mem mc.abuf.data = mc.abuf.data := by
        have hnv : isValueId (mc.abuf.mem.byte mc.abuf.data) = false := by
          have hstop' := hstop.symm
          simp only [elemStops, Bool.or_eq_true, beq_iff_eq] at hstop'
          rcases hstop' with h | h
          · rw [h]
            rfl
          · rw [h]
            rfl
        rw [elemNext, hnv, ← hstop]
        rfl
      rwa [hnext] at hwalk
    | false =>
      obtain ⟨hwalk', htr', hpl'⟩ := ih mc'
      rw [hwalk.data, hwalk.mem] at hwalk'
      exact ⟨hwalk.trans hwalk' (le_elemNext _ _), htr'.trans htr, hpl'.trans hpl⟩

/-- Elements behind a count. -/
theorem extension_spec (mc : Msg) :
    Walks mc (wsmpDecodeWaveElementExtension mc 0) (extNext mc.abuf.mem mc.abuf.data)
        (extReach mc.abuf.mem mc.abuf.data) ∧
      (wsmpDecodeWaveElementExtension mc 0).wsmp.transport = mc.wsmp.transport ∧
      (wsmpDecodeWaveElementExtension mc 0).payloadLen = mc.payloadLen := by
  obtain ⟨hlen, hval, hwsmp, hpl⟩ := walks_parseLength mc
  rw [wsmpDecodeWaveElementExtension, if_pos rfl]
  simp only [hval]
  obtain ⟨hwalk, htr, hpl'⟩ :=
    elements_spec (lenValue mc.abuf.mem mc.abuf.data).toNat (parseLength mc).2
  rw [hlen.data, hlen.mem] at hwalk
  refine ⟨hlen.trans hwalk (le_lenNext _ _), ?_, hpl'.trans hpl⟩
  rw [htr, hwsmp]

/-! ## The rest of a header -/

theorem canPull_iff (mc : Msg) (n : Nat) :
    mc.canPull n = true ↔ mc.abuf.data + n ≤ mc.abuf.tail := by
  have hnext : (mc.abuf.data + (n : Int)).toNat = mc.abuf.data + n := by omega
  simp only [Msg.canPull, abufPull, hnext]
  split
  · simp only [Option.isSome_none, Bool.false_eq_true, false_iff]
    omega
  · simp only [Option.isSome_some, true_iff]
    omega

theorem takePsid_spec (mc : Msg) :
    Walks mc (takePsid mc) (mc.abuf.data + psidFieldSize (mc.at_ 0))
        (mc.abuf.data + psidFieldSize (mc.at_ 0)) ∧
      (takePsid mc).wsmp = { mc.wsmp with psid := wsmpDecodePsid mc.abuf.mem mc.abuf.data } ∧
      (takePsid mc).payloadLen = mc.payloadLen := by
  refine ⟨?_, rfl, rfl⟩
  set size := psidFieldSize (mc.at_ 0) with hsize
  have hconsult := walks_consult mc (List.range' mc.abuf.data size) (mc.abuf.data + size) (by
      intro x hx
      rw [List.mem_range'_1] at hx
      exact hx)
  have hset := hconsult.trans (walks_setWsmp _ fun w =>
    { w with psid := wsmpDecodePsid mc.abuf.mem mc.abuf.data }) le_rfl
  have hall := hset.trans (walks_pull _ (size : Int)) le_rfl
  have hnext : (((mc.consult (List.range' mc.abuf.data size)).setWsmp fun w =>
      { w with psid := wsmpDecodePsid mc.abuf.mem mc.abuf.data }).abuf.data + (size : Int)).toNat =
      mc.abuf.data + size := by
    change ((mc.abuf.data : Int) + size).toNat = _
    omega
  rw [hnext] at hall
  refine hall.mono ?_
  change max (max (mc.abuf.data + size) mc.abuf.data) mc.abuf.data ≤ _
  omega

theorem takePorts_spec (mc : Msg) :
    ((takePorts mc).1 = true ↔ mc.abuf.data + 4 ≤ mc.abuf.tail) ∧
      ((takePorts mc).1 = true → Walks mc (takePorts mc).2 (mc.abuf.data + 4) (mc.abuf.data + 4) ∧
        (takePorts mc).2.wsmp =
          { mc.wsmp with
            srcPort := mc.at_ 0 * 256 + mc.at_ 1
            dstPort := mc.at_ 2 * 256 + mc.at_ 3 } ∧
        (takePorts mc).2.payloadLen = mc.payloadLen) := by
  have hone := canPull_iff mc 2
  have htwo := canPull_iff (mc.pull 2) 2
  have hdata : (mc.pull 2).abuf.data = mc.abuf.data + 2 := by
    change ((mc.abuf.data : Int) + 2).toNat = _
    omega
  have htail : (mc.pull 2).abuf.tail = mc.abuf.tail := rfl
  rw [hdata, htail] at htwo
  push_cast at hone htwo
  have hok : (takePorts mc).1 = (mc.canPull 2 && (mc.pull 2).canPull 2) := rfl
  rw [hok]
  refine ⟨?_, fun h => ?_⟩
  · rw [Bool.and_eq_true, hone, htwo]
    omega
  · have heq : (takePorts mc).2 =
        ((((mc.consult (List.range' mc.abuf.data 4)).setWsmp fun w =>
          { w with
            srcPort := mc.at_ 0 * 256 + mc.at_ 1
            dstPort := mc.at_ 2 * 256 + mc.at_ 3 }).pull 2).pull 2) := by
      simp only [takePorts, if_pos h]
    rw [heq]
    refine ⟨⟨?_, ?_⟩, rfl, rfl⟩
    · change { mc.abuf with
        data := (((mc.abuf.data : Int) + 2).toNat + (2 : Int)).toNat } = _
      congr 1
    · intro x hx
      have hx' : x ∈ List.range' mc.abuf.data 4 ++ mc.consulted := hx
      rw [List.mem_append, List.mem_range'_1] at hx'
      exact hx'.symm

/-- Where the PSID or the ports of a T-header at `q` end. -/
def idNext (m : Mem) (q : Nat) : Nat :=
  if 2 ≤ m.byte q then q + 5 else q + 1 + psidFieldSize (m.byte (q + 1))

/-- The T-header at `q`: PSID or ports, length and elements. -/
def transportNext (m : Mem) (q : Nat) : Nat :=
  if m.byte q % 2 = 1 then extNext m (lenNext m (idNext m q)) else lenNext m (idNext m q)

def transportReach (m : Mem) (q : Nat) : Nat :=
  max (max (idNext m q) (lenReach m (idNext m q)))
    (if m.byte q % 2 = 1 then extReach m (lenNext m (idNext m q)) else 0)

/-- The TPID octet and what identifies the receiver. -/
def takeId (mc : Msg) : Msg :=
  let mc' := ((mc.consult [mc.abuf.data]).setWsmp fun w => { w with tpid := mc.at_ 0 }).pull 1
  if 2 ≤ mc.at_ 0 then (takePorts mc').2 else takePsid mc'

/-- An octet is taken, for whichever field. -/
theorem walks_takeOctet (mc : Msg) (f : WsmpData → WsmpData) :
    Walks mc (((mc.consult [mc.abuf.data]).setWsmp f).pull 1) (mc.abuf.data + 1)
      (mc.abuf.data + 1) := by
  refine ⟨?_, fun x hx => ?_⟩
  · change { mc.abuf with data := ((mc.abuf.data : Int) + 1).toNat } = _
    congr 1
  · have hx' : x ∈ [mc.abuf.data] ++ mc.consulted := hx
    rw [List.mem_append, List.mem_singleton] at hx'
    rcases hx' with rfl | hx'
    · exact .inr ⟨le_rfl, Nat.lt_succ_self _⟩
    · exact .inl hx'

/-- The checked pulls decide the result. -/
theorem decodeTransport_eq (mc : Msg) :
    decodeTransport mc =
      if mc.abuf.data + 1 ≤ mc.abuf.tail ∧ mc.at_ 0 ≤ 5 ∧
          (2 ≤ mc.at_ 0 → mc.abuf.data + 5 ≤ mc.abuf.tail) then
        (0, decodeLength (takeId mc))
      else (-1, (decodeTransport mc).2) := by
  have hpull := canPull_iff (mc.consult [mc.abuf.data]) 1
  have habuf : (mc.consult [mc.abuf.data]).abuf = mc.abuf := rfl
  rw [habuf] at hpull
  push_cast at hpull
  have hwalk := walks_takeOctet mc fun w => { w with tpid := mc.at_ 0 }
  obtain ⟨hports, -⟩ := takePorts_spec
    (((mc.consult [mc.abuf.data]).setWsmp fun w => { w with tpid := mc.at_ 0 }).pull 1)
  rw [hwalk.data, hwalk.tail] at hports
  unfold decodeTransport takeId
  simp only
  by_cases h1 : mc.abuf.data + 1 ≤ mc.abuf.tail
  · rw [if_pos (hpull.mpr h1)]
    by_cases h5 : 5 < mc.at_ 0
    · rw [if_pos h5, if_neg (by omega)]
    · have h129 : mc.at_ 0 ≠ 129 := by omega
      rw [if_neg h5]
      by_cases h2 : 2 ≤ mc.at_ 0
      · rw [if_pos h2, if_pos h2]
        by_cases hok : mc.abuf.data + 5 ≤ mc.abuf.tail
        · rw [if_pos (hports.mpr (by omega)), if_neg h129, if_pos ⟨h1, by omega, fun _ => hok⟩]
        · rw [if_neg (fun h => hok (by have := hports.mp h; omega)), if_neg (fun h => hok (h.2.2 h2))]
      · rw [if_neg h2, if_neg h2, if_pos rfl, if_neg h129,
          if_pos ⟨h1, by omega, fun h => absurd h h2⟩]
  · rw [if_neg (fun h => h1 (hpull.mp h)), if_neg (fun h => h1 h.1)]

theorem takeId_spec (mc : Msg) (hports : 2 ≤ mc.at_ 0 → mc.abuf.data + 5 ≤ mc.abuf.tail) :
    Walks mc (takeId mc) (idNext mc.abuf.mem mc.abuf.data) (idNext mc.abuf.mem mc.abuf.data) ∧
      (takeId mc).wsmp =
        (if 2 ≤ mc.at_ 0 then
          { mc.wsmp with
            tpid := mc.at_ 0
            srcPort := mc.at_ 1 * 256 + mc.at_ 2
            dstPort := mc.at_ 3 * 256 + mc.at_ 4 }
        else
          { mc.wsmp with
            tpid := mc.at_ 0
            psid := wsmpDecodePsid mc.abuf.mem (mc.abuf.data + 1) }) := by
  have hat : mc.abuf.mem.byte mc.abuf.data = mc.at_ 0 := rfl
  have hwalk := walks_takeOctet mc fun w => { w with tpid := mc.at_ 0 }
  unfold takeId idNext
  rw [hat]
  simp only
  set mc' := ((mc.consult [mc.abuf.data]).setWsmp fun w => { w with tpid := mc.at_ 0 }).pull 1
    with hmc'
  have hwsmp : mc'.wsmp = { mc.wsmp with tpid := mc.at_ 0 } := rfl
  have hat' : ∀ i, mc'.at_ i = mc.at_ (i + 1) := by
    intro i
    rw [Msg.at_, hwalk.mem, hwalk.data, Msg.at_]
    congr 1
    omega
  by_cases h2 : 2 ≤ mc.at_ 0
  · rw [if_pos h2, if_pos h2, if_pos h2]
    obtain ⟨hiff, hspec⟩ := takePorts_spec mc'
    have hp := hports h2
    obtain ⟨hw, hwsmp', -⟩ := hspec (hiff.mpr (by rw [hwalk.data, hwalk.tail]; omega))
    rw [hwalk.data] at hw
    refine ⟨(hwalk.trans hw (by omega)).mono (by omega), ?_⟩
    rw [hwsmp', hat', hat', hat', hat', hwsmp]
  · rw [if_neg h2, if_neg h2, if_neg h2]
    obtain ⟨hw, hwsmp', -⟩ := takePsid_spec mc'
    have hfirst : mc'.at_ 0 = mc.abuf.mem.byte (mc.abuf.data + 1) := hat' 0
    rw [hwalk.data, hfirst] at hw
    rw [hwalk.data, hwalk.mem] at hwsmp'
    refine ⟨(hwalk.trans hw (by omega)).mono (by omega), ?_⟩
    rw [hwsmp', hwsmp]

/-- The T-header from the payload's length on: the message behind the length, and the elements that
an odd TPID announces. -/
theorem decodeLength_eq (mc : Msg) :
    ∃ mc', decodeLength mc =
        (if mc.wsmp.tpid % 2 = 1 then wsmpDecodeWaveElementExtension mc' 0 else mc') ∧
      Walks mc mc' (lenNext mc.abuf.mem mc.abuf.data) (lenReach mc.abuf.mem mc.abuf.data) ∧
      mc'.wsmp = mc.wsmp ∧ mc'.payloadLen = lenValue mc.abuf.mem mc.abuf.data := by
  obtain ⟨hlen, hval, hwsmp, -⟩ := walks_parseLength mc
  refine ⟨{ (parseLength mc).2 with payloadLen := (parseLength mc).1 }, ?_,
    ⟨hlen.abuf, hlen.consulted⟩, hwsmp, hval⟩
  rw [← hwsmp]
  rfl

/-- The length and the elements behind it. -/
theorem decodeLength_spec (mc : Msg) :
    Walks mc (decodeLength mc)
        (if mc.wsmp.tpid % 2 = 1 then extNext mc.abuf.mem (lenNext mc.abuf.mem mc.abuf.data)
          else lenNext mc.abuf.mem mc.abuf.data)
        (max (lenReach mc.abuf.mem mc.abuf.data)
          (if mc.wsmp.tpid % 2 = 1 then extReach mc.abuf.mem (lenNext mc.abuf.mem mc.abuf.data)
            else 0)) ∧
      (decodeLength mc).wsmp.transport = mc.wsmp.transport ∧
      (decodeLength mc).payloadLen = lenValue mc.abuf.mem mc.abuf.data := by
  obtain ⟨mc', heq, hlen, hwsmp, hval⟩ := decodeLength_eq mc
  rw [heq]
  by_cases hodd : mc.wsmp.tpid % 2 = 1
  · simp only [if_pos hodd]
    obtain ⟨hext, htr, hpl⟩ := extension_spec mc'
    rw [hlen.data, hlen.mem] at hext
    refine ⟨hlen.trans hext (le_lenNext _ _), ?_, hpl.trans hval⟩
    rw [htr, hwsmp]
  · simp only [if_neg hodd]
    exact ⟨hlen.mono (by omega), by rw [hwsmp], hval⟩

/-- The T-header of a message that is not refused. -/
theorem transport_spec (mc : Msg) (hports : 2 ≤ mc.at_ 0 → mc.abuf.data + 5 ≤ mc.abuf.tail) :
    Walks mc (decodeLength (takeId mc)) (transportNext mc.abuf.mem mc.abuf.data)
        (transportReach mc.abuf.mem mc.abuf.data) ∧
      (decodeLength (takeId mc)).wsmp.transport = (takeId mc).wsmp.transport ∧
      (decodeLength (takeId mc)).payloadLen =
        lenValue mc.abuf.mem (idNext mc.abuf.mem mc.abuf.data) := by
  obtain ⟨hid, hwsmp⟩ := takeId_spec mc hports
  obtain ⟨hlen, htr, hpl⟩ := decodeLength_spec (takeId mc)
  have htpid : (takeId mc).wsmp.tpid = mc.abuf.mem.byte mc.abuf.data := by
    rw [hwsmp]
    split <;> rfl
  rw [htpid, hid.mem, hid.data] at hlen
  rw [hid.mem, hid.data] at hpl
  refine ⟨?_, htr, hpl⟩
  have hle : mc.abuf.data ≤ idNext mc.abuf.mem mc.abuf.data := by
    unfold idNext
    split <;> omega
  exact (hid.trans hlen hle).mono (by unfold transportReach; omega)

end SatComm.Wsmp
