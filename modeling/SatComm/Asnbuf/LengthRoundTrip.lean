import SatComm.Asnbuf.Length

/-!
# Lengths written and read back

A length written at the tail, or pushed in front of a message, is read back at the same bit
position. The mask of the two-octet form takes bit 13 along, so lengths from `0x2000` on come
back `0x2000` smaller; the length `0` has no octets, and a reader that starts there reads
whatever follows. All other lengths come back, at every alignment of the buffer.
-/

namespace SatComm.Asnbuf

open Bits Abuf

/-- The length written at the tail is read back from there, up to the new tail. -/
def PutRoundTrip (bp : Abuf) (len : Nat) : Prop :=
  let bp' := asnPutEncodedLen bp len
  let r := parseAsnVariableLengthEnc bp'.mem (.ofPos bp.tailPos)
  r.1 = len ∧ r.2.pos = bp'.tailPos

/-- The length pushed in front is read back from the new front, up to the old one. -/
def PushRoundTrip (bp : Abuf) (len : Nat) : Prop :=
  let bp' := (asnPushEncodedLen bp len).2
  let r := parseAsnVariableLengthEnc bp'.mem (.ofPos bp'.startPos)
  r.1 = len ∧ r.2.pos = bp.startPos

/-! ## Reading at any alignment -/

theorem Cursor.ofPos_eq {c : Cursor} (hc : c.Valid) : Cursor.ofPos c.pos = c := by
  obtain ⟨hpos, hle⟩ := hc
  obtain ⟨cp, bitsLeft⟩ := c
  simp only [Cursor.pos, Cursor.ofPos, Cursor.mk.injEq] at *
  omega

/-- The branch for a cursor inside an octet, on the two octets at its position. -/
theorem parseAsnVariableLengthEnc_unaligned (m : Mem) {c : Cursor} (hc : c.Valid)
    (h8 : c.bitsLeft < 8) :
    parseAsnVariableLengthEnc m c =
      if m.field c.pos 8 < 128 then ((m.field c.pos 8 : Int), Cursor.ofPos (c.pos + 8))
      else if m.field c.pos 8 < 192 then
        ((((m.field c.pos 8 - 128) * 256 + m.field (c.pos + 8) 8 : Nat) : Int),
          Cursor.ofPos (c.pos + 16))
      else (-1, Cursor.ofPos (c.pos + 8)) := by
  obtain ⟨hv₁, hc₁, hp₁⟩ := getNextNBits_spec m hc (n := 8) (by decide) (by decide)
  obtain ⟨hv₂, hc₂, hp₂⟩ := getNextNBits_spec m hc₁ (n := 8) (by decide) (by decide)
  have he₁ := Cursor.ofPos_eq hc₁
  have he₂ := Cursor.ofPos_eq hc₂
  rw [hp₁] at he₁ hv₂ hp₂
  rw [hp₂, Nat.add_assoc] at he₂
  have hb := m.field_lt c.pos 8
  have hb' := m.field_lt (c.pos + 8) 8
  rw [parseAsnVariableLengthEnc, if_neg (by omega)]
  simp only [hv₁, ← he₁] at hv₂ he₂ ⊢
  by_cases htop : m.field c.pos 8 < 128
  · rw [if_pos htop, if_pos htop]
  · rw [if_neg htop, if_neg htop]
    by_cases hnext : m.field c.pos 8 < 192
    · rw [if_neg (by rw [and_next_ne_zero hb (by omega)]; omega), if_pos hnext]
      have hval : (m.field c.pos 8 &&& 0x7f) <<< 8 ||| m.field (c.pos + 8) 8 =
          (m.field c.pos 8 - 128) * 256 + m.field (c.pos + 8) 8 := by
        rw [and_seven_f, ← Nat.shiftLeft_add_eq_or_of_lt hb', Nat.shiftLeft_eq]
        omega
      rw [hv₂, hval, he₂]
    · rw [if_pos (by rw [and_next_ne_zero hb (by omega)]; omega), if_neg hnext]

/-- A read either fails or takes an octet at least. -/
theorem parseAsnVariableLengthEnc_progress (m : Mem) (p : Nat) :
    (parseAsnVariableLengthEnc m (.ofPos p)).1 = -1 ∨
      p < (parseAsnVariableLengthEnc m (.ofPos p)).2.pos := by
  by_cases h8 : p % 8 = 0
  · rw [show Cursor.ofPos p = ⟨p / 8, 8⟩ by rw [Cursor.ofPos, h8],
      parseAsnVariableLengthEnc_aligned]
    split_ifs
    · exact .inr (by simp only [Cursor.pos]; omega)
    · exact .inr (by simp only [Cursor.pos]; omega)
    · exact .inl rfl
  · rw [parseAsnVariableLengthEnc_unaligned m (Cursor.valid_ofPos p)
      (by simp only [Cursor.ofPos]; omega)]
    split_ifs
    · exact .inr (by simp)
    · exact .inr (by simp)
    · exact .inl rfl

/-- The octets of a length, wherever they start: bit 13 is lost. -/
theorem parse_octetBits_lengthOctets {m : Mem} {p len : Nat} (hlt : len < 0x4000)
    (h : m.bits p (8 * (lengthOctets len).length) = octetBits (lengthOctets len)) :
    (parseAsnVariableLengthEnc m (.ofPos p)).1 = (len % 0x2000 : Nat) ∧
      (parseAsnVariableLengthEnc m (.ofPos p)).2.pos = p + 8 * (lengthOctets len).length := by
  by_cases h8 : p % 8 = 0
  · have hp : p = 8 * (p / 8) := by omega
    have hcur : Cursor.ofPos p = ⟨p / 8, 8⟩ := by rw [Cursor.ofPos, h8]
    rw [hp] at h
    have hread := parse_lengthOctets hlt
      (Mem.holds_of_bits (fun o => lengthOctets_lt hlt) h)
    rw [hcur, hread]
    refine ⟨rfl, ?_⟩
    simp only [Cursor.pos]
    omega
  · rw [parseAsnVariableLengthEnc_unaligned m (Cursor.valid_ofPos p)
      (by simp only [Cursor.ofPos]; omega), Cursor.pos_ofPos]
    have he := encodedLen_eq hlt
    unfold lengthOctets at h ⊢
    by_cases hone : len < 0x80
    · rw [if_pos hone] at h ⊢
      have hfield : m.field p 8 = len := by
        rw [Mem.field_eq_of_bits m (v := len) (by simpa using h), Nat.mod_eq_of_lt (by omega)]
      rw [hfield, if_pos hone, Nat.mod_eq_of_lt (by omega)]
      exact ⟨rfl, Cursor.pos_ofPos _⟩
    · rw [if_neg hone] at h ⊢
      have hsplit : m.bits p 8 ++ m.bits (p + 8) 8 =
          toBits 8 (encodedLen len / 256) ++ toBits 8 (encodedLen len % 256) := by
        rw [← Mem.bits_add]
        simpa using h
      obtain ⟨hfst, hsnd⟩ := List.append_inj hsplit (by simp)
      rw [Mem.field_eq_of_bits m hfst, Mem.field_eq_of_bits m hsnd, if_neg (by omega),
        if_pos (by omega)]
      refine ⟨?_, Cursor.pos_ofPos _⟩
      simp only
      omega

/-! ## The two writers -/

/-- A length at the tail, at any alignment. -/
theorem appended_asnPutEncodedLen {bp : Abuf} (hf : Fillable bp) {len : Nat} (hpos : 0 < len)
    (hlt : len < 0x4000) (hroom : bp.tailPos + 8 * (lengthOctets len).length ≤ 8 * bp.end_) :
    Appended bp (asnPutEncodedLen bp len) (octetBits (lengthOctets len)) := by
  rw [asnPutEncodedLen, if_pos hpos, octetBits_lengthOctets]
  rw [length_lengthOctets] at hroom
  by_cases hone : len < 0x80
  · rw [if_pos hone] at hroom ⊢
    rw [if_pos hone]
    exact (asnNcatBits_spec hf len (by decide) hroom).2.1
  · rw [if_neg hone] at hroom ⊢
    rw [if_neg hone, if_pos hlt]
    obtain ⟨-, happ, hrdy, -⟩ :=
      asnNcatBits_spec hf (encodedLen len >>> 8) (w := 8) (by decide) (by omega)
    have htail := happ.tailPos
    rw [length_toBits] at htail
    obtain ⟨-, happ', -, -⟩ := asnNcatBits_spec hrdy.toFillable (encodedLen len &&& 0x00FF)
      (w := 8) (by decide) (by rw [htail, happ.frame.end_]; omega)
    rw [show (0x00FF : Nat) = 0xff from rfl, toBits_and_ff] at happ'
    rw [show (16 : Nat) = 8 + 8 from rfl, toBits_add]
    exact happ.trans happ'

theorem putRoundTrip_iff {bp : Abuf} (hf : Fillable bp) {len : Nat} (hlt : len < 0x4000)
    (hroom : bp.tailPos + 8 * (lengthOctets len).length ≤ 8 * bp.end_) :
    PutRoundTrip bp len ↔ 0 < len ∧ len < 0x2000 := by
  unfold PutRoundTrip
  by_cases hpos : 0 < len
  · have happ := appended_asnPutEncodedLen hf hpos hlt hroom
    have hnew := happ.new
    have htail := happ.tailPos
    rw [length_octetBits] at hnew htail
    obtain ⟨hval, hcur⟩ := parse_octetBits_lengthOctets hlt hnew
    simp only [hval, hcur, htail, and_true]
    omega
  · -- nothing is written, so a read that succeeds goes too far
    obtain rfl : len = 0 := by omega
    have hsame : asnPutEncodedLen bp 0 = bp := rfl
    have hprog := parseAsnVariableLengthEnc_progress bp.mem bp.tailPos
    rw [hsame]
    simp only
    omega

theorem pushRoundTrip_iff {bp : Abuf} (hh : bp.headHeadspaceBits ≤ 8) (hhead : 0 < bp.head)
    {len : Nat} (hlt : len < 0x4000)
    (hroom : 8 * bp.head + 8 * (lengthOctets len).length ≤ bp.startPos) :
    PushRoundTrip bp len ↔ 0 < len ∧ len < 0x2000 := by
  unfold PushRoundTrip
  by_cases hpos : 0 < len
  · have hpush := (asnPushEncodedLen_spec bp hpos hlt hh hhead hroom).1
    have hnew := hpush.new
    have hstart := hpush.startPos
    rw [length_octetBits] at hnew hstart
    obtain ⟨hval, hcur⟩ := parse_octetBits_lengthOctets hlt hnew
    simp only [hval, hcur, hstart, and_true]
    omega
  · obtain rfl : len = 0 := by omega
    have hsame : (asnPushEncodedLen bp 0).2 = bp := rfl
    have hprog := parseAsnVariableLengthEnc_progress bp.mem bp.startPos
    rw [hsame]
    simp only
    omega

/-- A length of at most fourteen bits makes the round trip, whichever writer writes it and
wherever it starts, iff it is neither zero nor longer than thirteen bits. -/
theorem encodedLen_roundTrip_iff (len : Nat) (hlt : len < 2 ^ 14) :
    (∀ bp : Abuf, Fillable bp → bp.tailPos + 8 * (lengthOctets len).length ≤ 8 * bp.end_ →
      (PutRoundTrip bp len ↔ 0 < len ∧ len < 2 ^ 13)) ∧
    ∀ bp : Abuf, bp.headHeadspaceBits ≤ 8 → 0 < bp.head →
      8 * bp.head + 8 * (lengthOctets len).length ≤ bp.startPos →
      (PushRoundTrip bp len ↔ 0 < len ∧ len < 2 ^ 13) :=
  ⟨fun _ hf hroom => putRoundTrip_iff hf hlt hroom,
    fun _ hh hhead hroom => pushRoundTrip_iff hh hhead hlt hroom⟩

/-- An abuf with three bits behind twelve bytes of headroom. -/
def threeBits : Abuf where
  mem := fun _ => 0
  head := 4096
  size := 32
  headHeadspaceBits := 0
  data := 4108
  tail := 4108
  tailBitsLeft := 5
  end_ := 4128
  written := []

theorem fillable_threeBits : Fillable threeBits := ⟨by decide, fun _ => rfl⟩

theorem encodedLen_roundTrip_300 :
    2 ^ 7 ≤ 300 ∧ PutRoundTrip threeBits 300 ∧ PushRoundTrip threeBits 300 :=
  ⟨by decide,
    ((encodedLen_roundTrip_iff 300 (by decide)).1 threeBits fillable_threeBits
      (by decide)).mpr (by decide),
    ((encodedLen_roundTrip_iff 300 (by decide)).2 threeBits (by decide) (by decide)
      (by decide)).mpr (by decide)⟩

/-- `8192` and `0` do not come back. -/
theorem encodedLen_8192_lost :
    ¬ PutRoundTrip threeBits 8192 ∧ ¬ PushRoundTrip threeBits 8192 ∧
      ¬ PutRoundTrip threeBits 0 := by
  refine ⟨?_, ?_, ?_⟩
  · rw [putRoundTrip_iff fillable_threeBits (by decide) (by decide)]
    decide
  · rw [pushRoundTrip_iff (by decide) (by decide) (by decide) (by decide)]
    decide
  · rw [putRoundTrip_iff fillable_threeBits (by decide) (by decide)]
    decide

end SatComm.Asnbuf
