import SatComm.Asnbuf.Push
import SatComm.Asnbuf.GetBits

/-!
# UPER lengths

A length below `0x80` is one octet, one below `0x4000` two octets with the top bit set. The
writers clear bit 13 of the two-octet form (`ASN_2BYTE_BIT_CLEAR`), so lengths from `0x2000` on
come out `0x2000` smaller; a length of `0` is not written at all.
-/

namespace SatComm.Asnbuf

open Bits Abuf

/-! ## The code -/

/-- The length octets of a length below `2 ^ 14`: one octet below `0x80`, else two with the top
bit set. The mask is the source's: it clears bit 13. -/
def encodedLen (len : Nat) : Nat := (len ||| 0x8000) &&& 0xDFFF

/-- `asn_push_encoded_len`. -/
def asnPushEncodedLen (bp : Abuf) (len : Nat) : Int × Abuf :=
  if 0 < len then
    if len < 0x80 then
      if bp.headHeadspaceBits = 8 then (8, (bp.poke bp.data len).withHead bp.data 0)
      else if bp.headHeadspaceBits = 0 then
        if bp.head < bp.data then
          (8, (bp.poke (bp.data - 1) len).withHead (bp.data - 1) bp.headHeadspaceBits)
        else (-1, bp)
      else asnPushBits bp len 8
    else if len < 0x4000 then asnPushBits bp (encodedLen len) 16
    else (-1, bp)
  else (0, bp)

/-- `asn_push_len`. -/
def asnPushLen (bp : Abuf) : Int × Abuf :=
  let len := abufBitsLen bp
  asnPushEncodedLen bp (len / 8 + if len % 8 ≠ 0 then 1 else 0).toNat

/-- `asn_put_encoded_len`. -/
def asnPutEncodedLen (bp : Abuf) (len : Nat) : Abuf :=
  if 0 < len then
    if len < 0x80 then (asnNcatBits bp len 8).2
    else if len < 0x4000 then
      let bp := (asnNcatBits bp (encodedLen len >>> 8) 8).2
      (asnNcatBits bp (encodedLen len &&& 0x00FF) 8).2
    else bp
  else bp

/-- `parse_asn_variable_length_enc`. A fragmented length is refused; on an octet boundary the
cursor then stays. -/
def parseAsnVariableLengthEnc (m : Mem) (c : Cursor) : Int × Cursor :=
  if 7 < c.bitsLeft then
    if m.byte c.cp &&& 0x80 ≠ 0 then
      if m.byte c.cp &&& 0x40 ≠ 0 then (-1, c)
      else
        (((m.byte c.cp &&& 0x7f) <<< 8 ||| m.byte (c.cp + 1) : Nat), ⟨c.cp + 2, c.bitsLeft⟩)
    else (m.byte c.cp, ⟨c.cp + 1, c.bitsLeft⟩)
  else
    let (byte1, c) := getNextNBits m c 8
    if byte1 < 0x80 then (byte1, c)
    else if byte1 &&& 0x40 ≠ 0 then (-1, c)
    else
      let (byte2, c) := getNextNBits m c 8
      (((byte1 &&& 0x7f) <<< 8 ||| byte2 : Nat), c)

/-! ## The octets of a length -/

/-- The octets of a length. -/
def lengthOctets (len : Nat) : List Nat :=
  if len < 0x80 then [len] else [encodedLen len / 256, encodedLen len % 256]

theorem encodedLen_eq {len : Nat} (hlt : len < 0x4000) :
    encodedLen len = 0x8000 + len % 0x2000 := by
  have h : ∀ i, (encodedLen len).testBit i = (0x8000 + len % 0x2000).testBit i := by
    intro i
    have hlow : len % 0x2000 < 2 ^ 15 := by omega
    have hor : 0x8000 + len % 0x2000 = 0x8000 ||| len % 0x2000 := by
      have := Nat.two_pow_add_eq_or_of_lt hlow 1
      simpa using this
    have hmask : (0xDFFF : Nat).testBit i =
        (decide (i < 13) || decide (i = 14) || decide (i = 15)) := by
      by_cases hi : i < 16
      · interval_cases i <;> decide
      · have hbig : (0xDFFF : Nat) < 2 ^ i :=
          lt_of_lt_of_le (by decide) (Nat.pow_le_pow_right (by decide) (show 16 ≤ i by omega))
        rw [Nat.testBit_lt_two_pow hbig]
        simp
        omega
    have htop : (0x8000 : Nat).testBit i = decide (i = 15) := by
      have : (0x8000 : Nat) = 2 ^ 15 := rfl
      rw [this, Nat.testBit_two_pow]
      simp [eq_comm]
    have hmod : (0x2000 : Nat) = 2 ^ 13 := rfl
    rw [hor, encodedLen, Nat.testBit_and, Nat.testBit_or, Nat.testBit_or, hmask, htop, hmod,
      Nat.testBit_mod_two_pow]
    by_cases hi : i < 13
    · have h15 : i ≠ 15 := by omega
      simp [hi, h15]
    · have hzero : 14 ≤ i → len.testBit i = false := by
        intro h14
        have hpow : 2 ^ 14 ≤ 2 ^ i := Nat.pow_le_pow_right (by omega) h14
        exact Nat.testBit_lt_two_pow (by omega)
      by_cases h15 : i = 15
      · simp [h15]
      · by_cases h14 : i = 14
        · simp [h14]
          simpa [h14] using hzero (by omega)
        · simp [hi, h14, h15]
  exact Nat.eq_of_testBit_eq h

theorem lengthOctets_lt {len o : Nat} (hlt : len < 0x4000) (h : o ∈ lengthOctets len) :
    o < 256 := by
  have he := encodedLen_eq hlt
  unfold lengthOctets at h
  split at h
  · rw [List.mem_singleton] at h
    omega
  · simp only [List.mem_cons, List.not_mem_nil, or_false] at h
    omega

theorem length_lengthOctets (len : Nat) :
    (lengthOctets len).length = if len < 0x80 then 1 else 2 := by
  unfold lengthOctets
  split <;> rfl

theorem octetBits_lengthOctets (len : Nat) :
    octetBits (lengthOctets len) =
      if len < 0x80 then toBits 8 len else toBits 16 (encodedLen len) := by
  unfold lengthOctets
  split
  · simp
  · have hmod : toBits 8 (encodedLen len % 256) = toBits 8 (encodedLen len) := toBits_mod 8 _
    have hdiv : encodedLen len / 256 = encodedLen len >>> 8 := by
      rw [Nat.shiftRight_eq_div_pow]
    rw [show (16 : Nat) = 8 + 8 from rfl, toBits_add, octetBits_cons, octetBits_cons,
      octetBits_nil, List.append_nil, hmod, hdiv]

/-! ## Writing a length -/

theorem asnPushEncodedLen_spec (bp : Abuf) {len : Nat} (hpos : 0 < len) (hlt : len < 0x4000)
    (hh : bp.headHeadspaceBits ≤ 8) (hhead : 0 < bp.head)
    (hroom : 8 * bp.head + 8 * (lengthOctets len).length ≤ bp.startPos) :
    Pushed bp (asnPushEncodedLen bp len).2 (octetBits (lengthOctets len)) ∧
      (asnPushEncodedLen bp len).2.headHeadspaceBits < 8 := by
  have hstart : bp.startPos = 8 * bp.data + bp.headHeadspaceBits := rfl
  rw [length_lengthOctets] at hroom
  rw [octetBits_lengthOctets, asnPushEncodedLen, if_pos hpos]
  by_cases hone : len < 0x80
  · rw [if_pos hone] at hroom
    rw [if_pos hone, if_pos hone]
    by_cases h8 : bp.headHeadspaceBits = 8
    · rw [if_pos h8]
      exact ⟨pushed_byte bp (by omega) rfl, by simp [Abuf.withHead]⟩
    · rw [if_neg h8]
      by_cases h0 : bp.headHeadspaceBits = 0
      · rw [if_pos h0, if_pos (by omega)]
        refine ⟨pushed_byte bp (by omega) (by omega), ?_⟩
        change bp.headHeadspaceBits < 8
        omega
      · rw [if_neg h0]
        exact asnPushBits_spec len (by omega) hh hhead hroom
  · rw [if_neg hone] at hroom
    rw [if_neg hone, if_neg hone, if_pos hlt]
    exact asnPushBits_spec _ (by omega) hh hhead (by omega)

/-- The length pushed is that of the message, rounded up to octets. -/
theorem asnPushLen_eq {bp : Abuf} {n : Nat} (h : abufBitsLen bp = n) :
    asnPushLen bp = asnPushEncodedLen bp ((n + 7) / 8) := by
  rw [asnPushLen, h]
  congr 1
  split
  · omega
  · omega

/-- One octet behind whole octets. -/
theorem asnNcatBits_octet {bp : Abuf} (v : Nat) (h8 : bp.tailBitsLeft = 8) :
    Appended bp (asnNcatBits bp v 8).2 (toBits 8 v) ∧ (asnNcatBits bp v 8).2.tailBitsLeft = 8 := by
  have hclear : (clearTail bp).tailBitsLeft = 8 := by rw [clearTail_tailBitsLeft, h8]
  rw [asnNcatBits, if_neg (by decide)]
  simp only
  rw [if_pos (by omega), if_pos ⟨trivial, hclear⟩]
  have happ := (appended_clearTail bp).trans (appended_putByte hclear v)
  exact ⟨happ, hclear⟩

theorem asnPutEncodedLen_spec {bp : Abuf} {len : Nat} (hpos : 0 < len) (hlt : len < 0x4000)
    (h8 : bp.tailBitsLeft = 8) :
    Appended bp (asnPutEncodedLen bp len) (octetBits (lengthOctets len)) ∧
      (asnPutEncodedLen bp len).tailBitsLeft = 8 := by
  rw [asnPutEncodedLen, if_pos hpos, octetBits_lengthOctets]
  by_cases hone : len < 0x80
  · rw [if_pos hone, if_pos hone]
    exact asnNcatBits_octet len h8
  · rw [if_neg hone, if_neg hone, if_pos hlt, show (16 : Nat) = 8 + 8 from rfl, toBits_add]
    obtain ⟨happ, h8'⟩ := asnNcatBits_octet (encodedLen len >>> 8) h8
    obtain ⟨happ', h8''⟩ := asnNcatBits_octet (encodedLen len &&& 0x00FF) h8'
    rw [show (0x00FF : Nat) = 0xff from rfl, toBits_and_ff] at happ'
    exact ⟨happ.trans happ', h8''⟩

/-! ## Reading a length on an octet boundary -/

theorem and_seven_f (b : Nat) : b &&& 0x7f = b % 128 := Nat.and_two_pow_sub_one_eq_mod b 7

theorem and_top_ne_zero {b : Nat} (hb : b < 256) : b &&& 0x80 ≠ 0 ↔ 128 ≤ b := by
  interval_cases b <;> decide

theorem and_next_ne_zero {b : Nat} (hb : b < 256) (h : 128 ≤ b) : b &&& 0x40 ≠ 0 ↔ 192 ≤ b := by
  interval_cases b <;> decide

/-- The three forms of a length. -/
theorem parseAsnVariableLengthEnc_aligned (m : Mem) (p : Nat) :
    parseAsnVariableLengthEnc m ⟨p, 8⟩ =
      if m.byte p < 128 then ((m.byte p : Int), ⟨p + 1, 8⟩)
      else if m.byte p < 192 then
        ((((m.byte p - 128) * 256 + m.byte (p + 1) : Nat) : Int), ⟨p + 2, 8⟩)
      else (-1, ⟨p, 8⟩) := by
  have hb := m.byte_lt p
  rw [parseAsnVariableLengthEnc, if_pos (show 7 < 8 by decide)]
  simp only
  by_cases htop : m.byte p < 128
  · rw [if_neg (by rw [and_top_ne_zero hb]; omega), if_pos htop]
  · rw [if_pos (by rw [and_top_ne_zero hb]; omega), if_neg htop]
    by_cases hnext : m.byte p < 192
    · have hval : (m.byte p &&& 0x7f) <<< 8 ||| m.byte (p + 1) =
          (m.byte p - 128) * 256 + m.byte (p + 1) := by
        rw [and_seven_f, ← Nat.shiftLeft_add_eq_or_of_lt (m.byte_lt (p + 1)), Nat.shiftLeft_eq]
        omega
      rw [if_neg (by rw [and_next_ne_zero hb (by omega)]; omega), if_pos hnext, hval]
    · rw [if_pos (by rw [and_next_ne_zero hb (by omega)]; omega), if_neg hnext]

/-- A written length read back: bit 13 is lost. -/
theorem parse_lengthOctets {m : Mem} {p len : Nat} (hlt : len < 0x4000)
    (h : m.Holds p (lengthOctets len)) :
    parseAsnVariableLengthEnc m ⟨p, 8⟩ =
      (((len % 0x2000 : Nat) : Int), ⟨p + (lengthOctets len).length, 8⟩) := by
  rw [parseAsnVariableLengthEnc_aligned, length_lengthOctets]
  unfold lengthOctets at h
  by_cases hone : len < 0x80
  · rw [if_pos hone] at h ⊢
    rw [h.1, if_pos hone, Nat.mod_eq_of_lt (by omega)]
  · rw [if_neg hone] at h ⊢
    obtain ⟨h₀, h₁, -⟩ := h
    have he := encodedLen_eq hlt
    rw [h₀, h₁, if_neg (by omega), if_pos (by omega)]
    congr 2
    omega

end SatComm.Asnbuf
