import SatComm.Bits.Writes
import SatComm.ECall.Output

/-!
# Euro NCAP additional data

`encodeEuroNcapOptionalAdditionalDataContent` packs the incident data into bits with two writers
and hands the octets out as a text of hexadecimal digits, which `writeOptionalData` turns back
into bits. One writer moves bits between two byte strings, the other tests the bits of a 16-bit
number.
-/

namespace SatComm.ECall

open Bits Mem

/-! ## The data -/

/-- `deltaVX` and `deltaVY` are `int16_t`. -/
structure ECallDeltaV where
  rangeLimit : BitVec 8
  deltaVX : BitVec 16
  deltaVY : BitVec 16
deriving DecidableEq, Repr

/-- `locationOfImpact` is an enumeration over `int`. -/
structure ECallOptionalEuroNcapData where
  locationOfImpact : BitVec 32
  rollOverDetectedPresent : Bool
  rollOverDetected : Bool
  deltaV : ECallDeltaV
deriving DecidableEq, Repr

/-! ## The writers -/

def oneByteBitMask : List Nat := [0x80, 0x40, 0x20, 0x10, 0x08, 0x04, 0x02, 0x01]

/-- The byte that a round of `encodeOneByteField` stores: bit `bitPos` of `data` goes to bit
`bitOffsetPos` of `encoded`. -/
def movedBit (encoded data bitPos bitOffsetPos : Nat) : Nat :=
  let mask := oneByteBitMask.getD bitPos 0
  let val := data &&& mask
  let (val, mask) :=
    if bitPos ≤ bitOffsetPos then
      (val >>> (bitOffsetPos - bitPos), mask >>> (bitOffsetPos - bitPos))
    else (val <<< (bitPos - bitOffsetPos) % 256, mask <<< (bitPos - bitOffsetPos) % 256)
  encoded &&& (0xff ^^^ mask) ||| val

/-- The loop of `encodeOneByteField`. The pointers are an address and a bit in its byte. -/
def oneByteLoop : Nat → Mem → Nat → Nat → Nat → Nat → Mem → Mem
  | 0, _, _, _, _, _, encodedData => encodedData
  | n + 1, dataField, d, bitPos, e, bitOffsetPos, encodedData =>
    let encodedData := encodedData.store e
      (movedBit (encodedData.byte e) (dataField.byte d) bitPos bitOffsetPos)
    let (d, bitPos) := if 7 < bitPos + 1 then (d + 1, 0) else (d, bitPos + 1)
    let (e, bitOffsetPos) := if 7 < bitOffsetPos + 1 then (e + 1, 0) else (e, bitOffsetPos + 1)
    oneByteLoop n dataField d bitPos e bitOffsetPos encodedData

/-- `ECallMsd::encodeOneByteField`. -/
def encodeOneByteField (bitOffset noOfBits : Nat) (dataField encodedData : Mem) : Nat × Mem :=
  let bitOffsetPos := bitOffset &&& 0x07
  let bitPos := 8 - if noOfBits &&& 0x07 ≠ 0 then noOfBits &&& 0x07 else (noOfBits &&& 0x07) + 8
  (bitOffset + noOfBits,
    oneByteLoop noOfBits dataField 0 bitPos (bitOffset >>> 3) bitOffsetPos encodedData)

def twoBytesBitMask : List Nat :=
  [0x01, 0x02, 0x04, 0x08, 0x10, 0x20, 0x40, 0x80, 0x100, 0x200, 0x400, 0x800, 0x1000, 0x2000,
    0x4000, 0x8000]

/-- The loop of `encodeTwoBytesField`, with the number of rounds left. -/
def twoBytesLoop : Nat → Nat → Nat → Mem → Mem
  | 0, _, _, encodedData => encodedData
  | n + 1, dataField, bitOffsetCurr, encodedData =>
    let byte := encodedData.byte (bitOffsetCurr >>> 3)
    let bit := 0x01 <<< (7 - (bitOffsetCurr &&& 0x07))
    let byte :=
      if dataField &&& twoBytesBitMask.getD n 0 ≠ 0 then byte ||| bit else byte &&& (0xff ^^^ bit)
    twoBytesLoop n dataField (bitOffsetCurr + 1) (encodedData.store (bitOffsetCurr >>> 3) byte)

/-- `ECallMsd::encodeTwoBytesField`. -/
def encodeTwoBytesField (bitOffset noOfBits dataField : Nat) (encodedData : Mem) : Nat × Mem :=
  (bitOffset + noOfBits, twoBytesLoop noOfBits dataField bitOffset encodedData)

/-- An object in memory, its least significant byte first. -/
def object (value : Nat) : Mem := fun i => UInt8.ofNat (value >>> (8 * i))

def rangelimitMin : Int := 100

def rangelimitMax : Int := 255

def deltavMin : Int := -255

def deltavMax : Int := 255

/-- The character for a half of an octet. -/
def hexChar (s : Nat) : UInt8 := UInt8.ofNat (if 9 < s then s + 55 else s + 48)

/-- The loop that makes a text of the first `n` octets. -/
def oadDataString (encodedData : Mem) (n : Nat) : Text :=
  (List.range n).flatMap fun i =>
    [hexChar (encodedData.byte i >>> 4), hexChar (encodedData.byte i &&& 0xf)]

/-- The fields up to the location of impact: the offset and the octets. -/
def encodeLocation (e : ECallOptionalEuroNcapData) : Nat × Mem :=
  let s := encodeOneByteField 0 1 (object 0) fun _ => 0
  let s := encodeOneByteField s.1 1 (object e.rollOverDetectedPresent.toNat) s.2
  let s := encodeOneByteField s.1 1 (object 0) s.2
  encodeOneByteField s.1 3 (object e.locationOfImpact.toNat) s.2

/-- The optional flag behind them. -/
def encodeRollOver (e : ECallOptionalEuroNcapData) (s : Nat × Mem) : Nat × Mem :=
  if e.rollOverDetectedPresent then
    encodeOneByteField s.1 1 (object e.rollOverDetected.toNat) s.2
  else s

/-- The fields of `deltaV`, shifted to be unsigned. -/
def encodeDeltaV (deltaV : ECallDeltaV) (s : Nat × Mem) : Nat × Mem :=
  let rangeLimit := (deltaV.rangeLimit.toNat - rangelimitMin).toNat
  let deltaVX := deltaV.deltaVX - BitVec.ofInt 16 deltavMin
  let deltaVY := deltaV.deltaVY - BitVec.ofInt 16 deltavMin
  let s := encodeOneByteField s.1 1 (object 0) s.2
  let s := encodeOneByteField s.1 8 (object rangeLimit) s.2
  let s := encodeTwoBytesField s.1 9 deltaVX.toNat s.2
  encodeTwoBytesField s.1 9 deltaVY.toNat s.2

/-- `ECallMsd::encodeEuroNcapOptionalAdditionalDataContent`: the status, and the output vector
afterwards. -/
def encodeEuroNcapOptionalAdditionalDataContent (e : ECallOptionalEuroNcapData) (data : Text) :
    Status × Text :=
  let s := encodeLocation e
  let locationOfImpact := e.locationOfImpact.toInt
  if locationOfImpact < 0 ∨ 6 < locationOfImpact then (.invalidParam, data)
  else
    let s := encodeRollOver e s
    let rangeLimit : Int := e.deltaV.rangeLimit.toNat
    if rangeLimit < rangelimitMin ∨ rangelimitMax < rangeLimit then (.invalidParam, data)
    else if e.deltaV.deltaVX.toInt < deltavMin ∨ deltavMax < e.deltaV.deltaVX.toInt then
      (.invalidParam, data)
    else if e.deltaV.deltaVY.toInt < deltavMin ∨ deltavMax < e.deltaV.deltaVY.toInt then
      (.invalidParam, data)
    else
      let s := encodeDeltaV e.deltaV s
      let contentLen := if s.1 % 8 ≠ 0 then s.1 / 8 + 1 else s.1 / 8
      (.success, oadDataString s.2 contentLen)

/-! ## What the writers write -/

theorem testBit_movedBit {e d bitPos off j : Nat} (hpos : bitPos < 8) (hoff : off < 8)
    (hj : j < 8) :
    (movedBit e d bitPos off).testBit (7 - j) =
      if j = off then d.testBit (7 - bitPos) else e.testBit (7 - j) := by
  have hmask : oneByteBitMask.getD bitPos 0 = 2 ^ (7 - bitPos) := by
    interval_cases bitPos <;> rfl
  -- after the shift the mask and the bit stand where the bit goes
  have hshift : movedBit e d bitPos off =
      e &&& (0xff ^^^ 2 ^ (7 - off)) ||| if d.testBit (7 - bitPos) then 2 ^ (7 - off) else 0 := by
    have hval : d &&& 2 ^ (7 - bitPos) = if d.testBit (7 - bitPos) then 2 ^ (7 - bitPos) else 0 := by
      rw [Nat.and_two_pow]
      cases d.testBit (7 - bitPos) <;> simp
    simp only [movedBit, hmask, hval]
    by_cases hle : bitPos ≤ off
    · have hright : 2 ^ (7 - bitPos) >>> (off - bitPos) = 2 ^ (7 - off) := by
        rw [Nat.shiftRight_eq_div_pow, Nat.pow_div (by omega) (by decide)]
        congr 1
        omega
      simp only [if_pos hle]
      split <;> simp [hright]
    · have hleft : 2 ^ (7 - bitPos) <<< (bitPos - off) % 256 = 2 ^ (7 - off) := by
        have hlt : 2 ^ (7 - off) < 256 :=
          Nat.pow_lt_pow_right (a := 2) (m := 7 - off) (n := 8) (by decide) (by omega)
        rw [Nat.shiftLeft_eq, ← Nat.pow_add, show 7 - bitPos + (bitPos - off) = 7 - off by omega,
          Nat.mod_eq_of_lt hlt]
      simp only [if_neg hle]
      split <;> simp [hleft]
  have hff : Nat.testBit 0xff (7 - j) = true := by
    interval_cases j <;> rfl
  rw [hshift, Nat.testBit_or, Nat.testBit_and, Nat.testBit_xor, hff, Nat.testBit_two_pow]
  by_cases hjo : j = off
  · subst hjo
    cases d.testBit (7 - bitPos) <;> simp
  · have hne : ¬ 7 - off = 7 - j := by omega
    cases d.testBit (7 - bitPos) <;> simp [hjo, hne]

/-- A pointer steps to the next bit. -/
theorem nextBit {a b a' b' : Nat} (hb : b < 8)
    (h : (if 7 < b + 1 then (a + 1, 0) else (a, b + 1)) = (a', b')) :
    8 * a' + b' = 8 * a + b + 1 ∧ b' < 8 := by
  split at h
  · obtain ⟨rfl, rfl⟩ := Prod.mk.inj h
    omega
  · obtain ⟨rfl, rfl⟩ := Prod.mk.inj h
    omega

theorem wrote_oneByteLoop (n : Nat) (dataField : Mem) {d bitPos e off : Nat}
    (hpos : bitPos < 8) (hoff : off < 8) (m : Mem) :
    Wrote m (oneByteLoop n dataField d bitPos e off m) (8 * e + off)
      (dataField.bits (8 * d + bitPos) n) := by
  induction n generalizing d bitPos e off m with
  | zero => exact wrote_nil m _
  | succ n ih =>
    have hfirst : Wrote m (m.store e (movedBit (m.byte e) (dataField.byte d) bitPos off))
        (8 * e + off) [dataField.bit (8 * d + bitPos)] := by
      refine wrote_store hoff fun j hj => ?_
      rw [testBit_movedBit hpos hoff hj, bit_of_byte _ _ _ hpos]
    have hsplit : dataField.bits (8 * d + bitPos) (n + 1) =
        [dataField.bit (8 * d + bitPos)] ++ dataField.bits (8 * d + bitPos + 1) n := by
      rw [Nat.add_comm n 1, bits_add]
      rfl
    rw [hsplit]
    refine hfirst.append ?_
    rw [List.length_singleton, oneByteLoop]
    rcases hd : (if 7 < bitPos + 1 then (d + 1, 0) else (d, bitPos + 1)) with ⟨d', bitPos'⟩
    rcases he : (if 7 < off + 1 then (e + 1, 0) else (e, off + 1)) with ⟨e', off'⟩
    obtain ⟨hdata, hpos'⟩ := nextBit hpos hd
    obtain ⟨hencoded, hoff'⟩ := nextBit hoff he
    simp only
    rw [← hdata, ← hencoded]
    exact ih hpos' hoff' _

/-- `encodeOneByteField` appends the low bits of the first byte of the field. -/
theorem encodeOneByteField_spec {n : Nat} (hn : 0 < n) (h8 : n ≤ 8) (offset : Nat)
    (dataField m : Mem) :
    (encodeOneByteField offset n dataField m).1 = offset + n ∧
      Wrote m (encodeOneByteField offset n dataField m).2 offset
        (toBits n (dataField.byte 0)) := by
  refine ⟨rfl, ?_⟩
  have hpos : (8 - if n &&& 0x07 ≠ 0 then n &&& 0x07 else (n &&& 0x07) + 8) = 8 - n := by
    interval_cases n <;> rfl
  have hoff : offset &&& 0x07 = offset % 8 := Nat.and_two_pow_sub_one_eq_mod offset 3
  have hbits : dataField.bits (8 * 0 + (8 - n)) n = toBits n (dataField.byte 0) := by
    rw [bits_eq_toBits_iff]
    intro i hi
    rw [Nat.add_assoc, bit_of_byte _ _ _ (by omega)]
    congr 1
    omega
  have hloop : Wrote m (oneByteLoop n dataField 0 (8 - n) (offset >>> 3) (offset % 8) m)
      (8 * (offset >>> 3) + offset % 8) (dataField.bits (8 * 0 + (8 - n)) n) :=
    wrote_oneByteLoop n dataField (by omega) (by omega) m
  rw [hbits, Nat.shiftRight_eq_div_pow, show 8 * (offset / 2 ^ 3) + offset % 8 = offset by omega]
    at hloop
  simp only [encodeOneByteField, hpos, hoff]
  rwa [Nat.shiftRight_eq_div_pow]

theorem wrote_twoBytesLoop {n : Nat} (h16 : n ≤ 16) (dataField cur : Nat) (m : Mem) :
    Wrote m (twoBytesLoop n dataField cur m) cur (toBits n dataField) := by
  induction n generalizing cur m with
  | zero => exact wrote_nil m cur
  | succ n ih =>
    have hmask : twoBytesBitMask.getD n 0 = 2 ^ n := by
      have : n < 16 := by omega
      interval_cases n <;> rfl
    have hbit : (dataField &&& 2 ^ n ≠ 0) ↔ dataField.testBit n = true := by
      rw [Nat.and_two_pow]
      cases dataField.testBit n <;> simp
    have hcur : 8 * (cur >>> 3) + cur % 8 = cur := by
      rw [Nat.shiftRight_eq_div_pow]
      omega
    have hoff : cur &&& 0x07 = cur % 8 := Nat.and_two_pow_sub_one_eq_mod cur 3
    have hsplit : toBits (n + 1) dataField = [dataField.testBit n] ++ toBits n dataField := by
      rw [Nat.add_comm n 1, toBits_add]
      simp [toBits]
    have hfirst : Wrote m
        (m.store (cur >>> 3)
          (if dataField &&& twoBytesBitMask.getD n 0 ≠ 0 then
            m.byte (cur >>> 3) ||| 0x01 <<< (7 - (cur &&& 0x07))
          else m.byte (cur >>> 3) &&& (0xff ^^^ 0x01 <<< (7 - (cur &&& 0x07)))))
        cur [dataField.testBit n] := by
      rw [hmask, hoff, Nat.one_shiftLeft]
      have hone : Wrote m
          (m.store (cur >>> 3) (if dataField &&& 2 ^ n ≠ 0 then
            m.byte (cur >>> 3) ||| 2 ^ (7 - cur % 8)
          else m.byte (cur >>> 3) &&& (0xff ^^^ 2 ^ (7 - cur % 8))))
          (8 * (cur >>> 3) + cur % 8) [dataField.testBit n] := by
        refine wrote_store (by omega) fun j hj => ?_
        have hff : Nat.testBit 0xff (7 - j) = true := by
          interval_cases j <;> rfl
        simp only [hbit]
        cases dataField.testBit n with
        | false =>
          rw [if_neg (by simp), Nat.testBit_and, Nat.testBit_xor, hff, Nat.testBit_two_pow]
          by_cases hjc : j = cur % 8
          · simp [hjc]
          · have hne : ¬ 7 - cur % 8 = 7 - j := by omega
            simp [hjc, hne]
        | true =>
          rw [if_pos rfl, Nat.testBit_or, Nat.testBit_two_pow]
          by_cases hjc : j = cur % 8
          · simp [hjc]
          · have hne : ¬ 7 - cur % 8 = 7 - j := by omega
            simp [hjc, hne]
      rwa [hcur] at hone
    rw [hsplit, twoBytesLoop]
    exact hfirst.append (ih (by omega) (cur + 1) _)

/-- `encodeTwoBytesField` appends the low bits of the number. -/
theorem encodeTwoBytesField_spec {n : Nat} (h16 : n ≤ 16) (offset dataField : Nat) (m : Mem) :
    (encodeTwoBytesField offset n dataField m).1 = offset + n ∧
      Wrote m (encodeTwoBytesField offset n dataField m).2 offset (toBits n dataField) :=
  ⟨rfl, wrote_twoBytesLoop h16 dataField offset m⟩

/-! ## The text -/

/-- The bits the content stands for. -/
def euroNcapBits (e : ECallOptionalEuroNcapData) : List Bool :=
  [false, e.rollOverDetectedPresent, false] ++ toBits 3 e.locationOfImpact.toNat ++
    (if e.rollOverDetectedPresent then [e.rollOverDetected] else []) ++ [false] ++
    toBits 8 (e.deltaV.rangeLimit.toNat - 100) ++ toBits 9 (e.deltaV.deltaVX.toInt + 255).toNat ++
    toBits 9 (e.deltaV.deltaVY.toInt + 255).toNat

/-- The fields are within the ranges of the incident data. -/
structure InRange (e : ECallOptionalEuroNcapData) : Prop where
  location : 0 ≤ e.locationOfImpact.toInt ∧ e.locationOfImpact.toInt ≤ 6
  rangeLimit : 100 ≤ e.deltaV.rangeLimit.toNat
  deltaVX : -255 ≤ e.deltaV.deltaVX.toInt ∧ e.deltaV.deltaVX.toInt ≤ 255
  deltaVY : -255 ≤ e.deltaV.deltaVY.toInt ∧ e.deltaV.deltaVY.toInt ≤ 255

/-- The offset is behind the bits written so far. -/
structure Written (s : Nat × Mem) (bs : List Bool) : Prop where
  offset : s.1 = bs.length
  wrote : Wrote (fun _ => 0) s.2 0 bs

theorem Written.oneByte {s : Nat × Mem} {bs : List Bool} (h : Written s bs) {n : Nat}
    (hn : 0 < n) (h8 : n ≤ 8) {v : Nat} :
    Written (encodeOneByteField s.1 n (object v) s.2) (bs ++ toBits n v) := by
  obtain ⟨hoffset, hwrote⟩ := encodeOneByteField_spec hn h8 s.1 (object v) s.2
  have hbyte : toBits n ((object v).byte 0) = toBits n v := by
    have hmod : (object v).byte 0 = v % 2 ^ 8 := by simp [object, byte]
    rw [hmod]
    apply toBits_eq_of_testBit
    intro i hi
    rw [Nat.testBit_mod_two_pow]
    simp only [show i < 8 by omega, decide_true, Bool.true_and]
  rw [hbyte, h.offset] at hwrote
  refine ⟨by rw [hoffset, h.offset, List.length_append, length_toBits], ?_⟩
  rw [h.offset]
  exact h.wrote.append (by rwa [Nat.zero_add])

theorem Written.twoBytes {s : Nat × Mem} {bs : List Bool} (h : Written s bs) {n : Nat}
    (h16 : n ≤ 16) {v : Nat} :
    Written (encodeTwoBytesField s.1 n v s.2) (bs ++ toBits n v) := by
  obtain ⟨hoffset, hwrote⟩ := encodeTwoBytesField_spec h16 s.1 v s.2
  rw [h.offset] at hwrote
  refine ⟨by rw [hoffset, h.offset, List.length_append, length_toBits], ?_⟩
  rw [h.offset]
  exact h.wrote.append (by rwa [Nat.zero_add])

theorem toBits_one_toNat (b : Bool) : toBits 1 b.toNat = [b] := by
  cases b <;> rfl

theorem written_encodeLocation (e : ECallOptionalEuroNcapData) :
    Written (encodeLocation e)
      ([false, e.rollOverDetectedPresent, false] ++ toBits 3 e.locationOfImpact.toNat) := by
  have h₀ : Written (0, fun _ => 0) [] := ⟨rfl, wrote_nil _ 0⟩
  have h₁ := h₀.oneByte (n := 1) (by decide) (by decide) (v := 0)
  have h₂ := h₁.oneByte (n := 1) (by decide) (by decide) (v := e.rollOverDetectedPresent.toNat)
  have h₃ := h₂.oneByte (n := 1) (by decide) (by decide) (v := 0)
  have h₄ := h₃.oneByte (n := 3) (by decide) (by decide) (v := e.locationOfImpact.toNat)
  rw [toBits_one_toNat] at h₄
  exact h₄

theorem Written.rollOver {s : Nat × Mem} {bs : List Bool} (h : Written s bs)
    (e : ECallOptionalEuroNcapData) :
    Written (encodeRollOver e s)
      (bs ++ if e.rollOverDetectedPresent then [e.rollOverDetected] else []) := by
  unfold encodeRollOver
  split
  · have h₁ := h.oneByte (n := 1) (by decide) (by decide) (v := e.rollOverDetected.toNat)
    rwa [toBits_one_toNat] at h₁
  · rwa [List.append_nil]

theorem toNat_sub_deltavMin {v : BitVec 16} (h : -255 ≤ v.toInt ∧ v.toInt ≤ 255) :
    (v - BitVec.ofInt 16 deltavMin).toNat = (v.toInt + 255).toNat := by
  have hmin : BitVec.ofInt 16 deltavMin = 65281 := by decide
  have hint := BitVec.toInt_eq_toNat_cond v
  have := v.isLt
  rw [hmin, BitVec.toNat_sub]
  split at hint
  · have : (65281 : BitVec 16).toNat = 65281 := rfl
    omega
  · have : (65281 : BitVec 16).toNat = 65281 := rfl
    omega

theorem Written.deltaV {s : Nat × Mem} {bs : List Bool} (h : Written s bs)
    {e : ECallOptionalEuroNcapData} (he : InRange e) :
    Written (encodeDeltaV e.deltaV s)
      (bs ++ [false] ++ toBits 8 (e.deltaV.rangeLimit.toNat - 100) ++
        toBits 9 (e.deltaV.deltaVX.toInt + 255).toNat ++
        toBits 9 (e.deltaV.deltaVY.toInt + 255).toNat) := by
  have hrange : (e.deltaV.rangeLimit.toNat - rangelimitMin).toNat =
      e.deltaV.rangeLimit.toNat - 100 := by
    unfold rangelimitMin
    omega
  have h₁ := h.oneByte (n := 1) (by decide) (by decide) (v := 0)
  have h₂ := h₁.oneByte (n := 8) (by decide) (by decide)
    (v := (e.deltaV.rangeLimit.toNat - rangelimitMin).toNat)
  have h₃ := h₂.twoBytes (n := 9) (by decide)
    (v := (e.deltaV.deltaVX - BitVec.ofInt 16 deltavMin).toNat)
  have h₄ := h₃.twoBytes (n := 9) (by decide)
    (v := (e.deltaV.deltaVY - BitVec.ofInt 16 deltavMin).toNat)
  rw [← hrange, ← toNat_sub_deltavMin he.deltaVX, ← toNat_sub_deltavMin he.deltaVY]
  exact h₄

theorem length_euroNcapBits (e : ECallOptionalEuroNcapData) :
    (euroNcapBits e).length = if e.rollOverDetectedPresent then 34 else 33 := by
  unfold euroNcapBits
  split <;> simp

def hexDigits : Text := [48, 49, 50, 51, 52, 53, 54, 55, 56, 57, 65, 66, 67, 68, 69, 70]

/-- The text of some octets, two hexadecimal digits each. -/
def hexText (octets : List Nat) : Text :=
  octets.flatMap fun o => [hexDigits.getD (o / 16) 0, hexDigits.getD (o % 16) 0]

theorem hexChar_eq {s : Nat} (h : s < 16) : hexChar s = hexDigits.getD s 0 := by
  interval_cases s <;> rfl

/-- `writePrintableString` reads a digit back. -/
theorem convertChar_hexDigit {s : Nat} (h : s < 16) : convertChar (hexDigits.getD s 0) = s := by
  interval_cases s <;> rfl

theorem oadDataString_eq (m : Mem) (n : Nat) : oadDataString m n = hexText (m.octets 0 n) := by
  unfold oadDataString hexText octets
  rw [List.flatMap_map]
  congr 1
  funext i
  have hlt := m.byte_lt i
  have hlow : m.byte i &&& 0xf = m.byte i % 16 := Nat.and_two_pow_sub_one_eq_mod _ 4
  rw [Nat.zero_add, hlow, Nat.shiftRight_eq_div_pow, hexChar_eq (by omega), hexChar_eq (by omega)]

theorem length_hexText (os : List Nat) : (hexText os).length = 2 * os.length := by
  induction os with
  | nil => rfl
  | cons o os ih =>
    have hcons : hexText (o :: os) =
        [hexDigits.getD (o / 16) 0, hexDigits.getD (o % 16) 0] ++ hexText os := rfl
    rw [hcons, List.length_append, ih, List.length_cons, List.length_cons, List.length_cons,
      List.length_nil]
    omega

theorem writePrintableString_hexText {os : List Nat} (h : ∀ o ∈ os, o < 256) :
    writePrintableString (hexText os) true = octetBits os := by
  induction os with
  | nil => rfl
  | cons o os ih =>
    have ho : o < 256 := h o List.mem_cons_self
    have hhigh := convertChar_hexDigit (s := o / 16) (by omega)
    have hlow := convertChar_hexDigit (s := o % 16) (by omega)
    have hcons : writePrintableString (hexText (o :: os)) true =
        toBits 4 (convertChar (hexDigits.getD (o / 16) 0)) ++
          (toBits 4 (convertChar (hexDigits.getD (o % 16) 0)) ++
            writePrintableString (hexText os) true) := rfl
    have hoctet : toBits 8 o = toBits 4 (o / 16) ++ toBits 4 (o % 16) := by
      have hmod : toBits 4 (o % 16) = toBits 4 o := toBits_mod 4 o
      have hsplit := toBits_add 4 4 o
      rw [Nat.shiftRight_eq_div_pow] at hsplit
      rwa [hmod]
    rw [hcons, hhigh, hlow, ih fun o' ho' => h o' (List.mem_cons_of_mem o ho'), octetBits_cons,
      hoctet, List.append_assoc]

/-- The octets hold the bits of the incident data, and less than an octet of zeros. -/
structure IsContent (e : ECallOptionalEuroNcapData) (os : List Nat) : Prop where
  octets : ∀ o ∈ os, o < 256
  bits : ∃ k < 8, octetBits os = euroNcapBits e ++ List.replicate k false

theorem encodeEuroNcap_spec {e : ECallOptionalEuroNcapData} (h : InRange e) (data : Text) :
    ∃ os, IsContent e os ∧ os.length = 5 ∧
      encodeEuroNcapOptionalAdditionalDataContent e data = (.success, hexText os) := by
  have hwritten := ((written_encodeLocation e).rollOver e).deltaV h
  set s := encodeDeltaV e.deltaV (encodeRollOver e (encodeLocation e)) with hs
  have hoffset : s.1 = (euroNcapBits e).length := hwritten.offset
  have hwrote : Wrote (fun _ => 0) s.2 0 (euroNcapBits e) := hwritten.wrote
  have hlength := length_euroNcapBits e
  have hlen : (if s.1 % 8 ≠ 0 then s.1 / 8 + 1 else s.1 / 8) = 5 := by
    rw [hoffset, hlength]
    cases e.rollOverDetectedPresent <;> rfl
  refine ⟨s.2.octets 0 5, ⟨fun o ho => octets_lt ho, 40 - (euroNcapBits e).length, ?_, ?_⟩,
    length_octets 0 5, ?_⟩
  · rw [hlength]
    split <;> omega
  · have hclear := hwrote.bits_of_clear (40 - (euroNcapBits e).length)
    rw [show (euroNcapBits e).length + (40 - (euroNcapBits e).length) = 8 * 5 by
      rw [hlength]; split <;> omega] at hclear
    rw [← hclear]
    exact (bits_octets 0 5).symm
  · have hrange := h.rangeLimit
    have hmax := e.deltaV.rangeLimit.isLt
    obtain ⟨hloc, hloc'⟩ := h.location
    obtain ⟨hx, hx'⟩ := h.deltaVX
    obtain ⟨hy, hy'⟩ := h.deltaVY
    unfold encodeEuroNcapOptionalAdditionalDataContent rangelimitMin rangelimitMax deltavMin
      deltavMax
    simp only
    rw [if_neg (by omega), if_neg (by omega), if_neg (by omega), if_neg (by omega), ← hs, hlen,
      oadDataString_eq]

/-! ## In the message -/

/-- A message that takes a text as its additional data, and has nothing else to be refused for. -/
structure Carries (d : ECallMsdData) (text : Text) : Prop where
  version : d.msdVersion = 2 ∨ d.msdVersion = 3
  locations : d.msdVersion = 3 →
    d.optionals.recentVehicleLocationN1Present = true ∧
      d.optionals.recentVehicleLocationN2Present = true
  present : d.optionals.optionalDataPresent = true
  oid : d.optionalPdu.oid ≠ []
  encoded : (encodedOid d.optionalPdu.oid).length ≠ 0
  data : d.optionalPdu.data = text

/-- The bits of a message in front of the length octet of its additional data. -/
def frontBits (d : ECallMsdData) : List Bool :=
  msdPdu d (octetsFor (countedBits d)) [] ++ toBits 8 (encodedOid d.optionalPdu.oid).length ++
    (encodedOid d.optionalPdu.oid).flatMap (signed 8)

/-- The octets stand behind their length octet, at the end of the message. -/
def Placed (d : ECallMsdData) (os pdu : List Nat) : Prop :=
  ∃ k < 8, octetBits pdu =
    frontBits d ++ toBits 8 os.length ++ octetBits os ++ List.replicate k false

theorem Carries.accepted {d : ECallMsdData} {os : List Nat} (h : Carries d (hexText os))
    (hpos : 0 < os.length) (hlen : os.length ≤ maxOadLength) : Accepted d where
  version := h.version
  locations := h.locations
  additional _ := by
    have hdata := congrArg List.length h.data
    rw [length_hexText] at hdata
    refine ⟨h.oid, h.encoded, ?_, by omega, by omega⟩
    intro hnil
    rw [hnil, List.length_nil] at hdata
    omega

theorem Carries.placed {d : ECallMsdData} {os : List Nat} (h : Carries d (hexText os))
    (hos : ∀ o ∈ os, o < 256) : Placed d os (message d) := by
  have hadditional : additionalOf d =
      toBits 8 (encodedOid d.optionalPdu.oid).length ++
        (encodedOid d.optionalPdu.oid).flatMap (signed 8) ++
        (toBits 8 os.length ++ octetBits os) := by
    have hhalf : d.optionalPdu.data.length / 2 = os.length := by
      rw [h.data, length_hexText]
      omega
    rw [additionalOf, if_pos h.present, additionalData, hhalf, h.data,
      writePrintableString_hexText hos]
  have hcontent : content d = frontBits d ++ toBits 8 os.length ++ octetBits os := by
    have hsplit : content d = msdPdu d (octetsFor (countedBits d)) [] ++ additionalOf d := by
      simp [content, msdPdu]
    rw [hsplit, hadditional, frontBits]
    simp only [List.append_assoc]
  refine ⟨(8 - (content d).length % 8) % 8, by omega, ?_⟩
  have hlen : (content d ++ padding (content d)).length % 8 = 0 := by
    rw [length_add_padding]
    omega
  rw [message, (octetBits_toOctets hlen).1, ← hcontent]
  rfl

/-- For incident data within its ranges the call succeeds with a text of octets that hold the bits
of the data. A message that takes the text has exactly these octets behind the length octet of its
additional data, and it is refused only for its size. -/
theorem euroNcap_placed (e : ECallOptionalEuroNcapData) (h : InRange e) (data : Text) :
    ∃ os, encodeEuroNcapOptionalAdditionalDataContent e data = (.success, hexText os) ∧
      IsContent e os ∧
      ∀ d out, Carries d (hexText os) →
        Placed d os (generateECallMsd d out).2 ∧
          ((generateECallMsd d out).1 = .success ↔ (generateECallMsd d out).2.length ≤ 140) := by
  obtain ⟨os, hcontent, hlen, hcall⟩ := encodeEuroNcap_spec h data
  refine ⟨os, hcall, hcontent, fun d out hd => ?_⟩
  have haccepted := hd.accepted (by omega) (by unfold maxOadLength; omega)
  rw [generateECallMsd_of_accepted haccepted]
  refine ⟨hd.placed hcontent.octets, ?_⟩
  unfold msdPduSize
  simp only
  split
  · simp
    omega
  · simp
    omega

/-- A rollover after an impact at an unspecified location. -/
def incident : ECallOptionalEuroNcapData := ⟨6, true, true, ⟨255, 255, -255⟩⟩

theorem euroNcap_placed_incident : InRange incident ∧
    ∃ os, encodeEuroNcapOptionalAdditionalDataContent incident [] = (.success, hexText os) ∧
      IsContent incident os ∧
      ∀ d out, Carries d (hexText os) →
        Placed d os (generateECallMsd d out).2 ∧
          ((generateECallMsd d out).1 = .success ↔ (generateECallMsd d out).2.length ≤ 140) := by
  have h : InRange incident := by
    constructor <;> decide
  exact ⟨h, euroNcap_placed incident h []⟩

end SatComm.ECall
