import SatComm.Asnbuf.LengthRoundTrip
import SatComm.Asnbuf.PushOrder

/-!
# Lengths in canonical encoding

A length below `0x80` is one octet. A longer one is its octets, most significant octet first,
behind an octet that has its top bit set and counts them. The writer pushes the octets, the
count and the top bit one after the other and looks at none of the results, so without the
headroom for all three it leaves a part of them and still returns `0`.
-/

namespace SatComm.Asnbuf

open Bits Abuf

/-! ## The code -/

/-- `noctets` of `asn_push_CER_encoded_len`. -/
def cerOctetCount (len : Nat) : Nat :=
  if len < 0x0100 then 1 else if len < 0x010000 then 2 else if len < 0x01000000 then 3
  else if len < 0x0100000000 then 4 else 0

/-- `asn_push_CER_encoded_len`: the result and the abuf afterwards. -/
def asnPushCerEncodedLen (bp : Abuf) (len : Nat) : Int × Abuf :=
  if 0 < len then
    if len < 0x80 then
      if bp.headHeadspaceBits = 8 then (8, (bp.poke bp.data len).withHead bp.data 0)
      else if bp.headHeadspaceBits = 0 then
        if bp.head < bp.data then
          (8, (bp.poke (bp.data - 1) len).withHead (bp.data - 1) bp.headHeadspaceBits)
        else (-1, bp)
      else asnPushBits bp len 8
    else
      let noctets := cerOctetCount len
      if noctets = 0 then (0, bp)
      else
        let bp := (asnPushBits bp len (8 * noctets)).2
        let bp := (asnPushBits bp noctets 7).2
        (0, (asnPushBits bp 1 1).2)
  else (0, bp)

/-- The loop of `parse_asn_CER_len_enc`. `length` is a `uint64_t`; `-1` stands for none yet. -/
def cerOctets (m : Mem) : Nat → Nat → Cursor → Nat × Cursor
  | 0, length, c => (length, c)
  | noctets + 1, length, c =>
    let (byte, c) := getNextNBits m c 8
    cerOctets m noctets
      (if length = 2 ^ 64 - 1 then byte else (length <<< 8) % 2 ^ 64 ||| byte) c

/-- `parse_asn_CER_len_enc`. More than eight octets are complained about and read all the same. -/
def parseAsnCerLenEnc (m : Mem) (c : Cursor) : Nat × Cursor :=
  if m.byte c.cp &&& 0x80 ≠ 0 then
    let (noctets, c) := getNextNBits m ⟨c.cp, 7⟩ 7
    cerOctets m noctets (2 ^ 64 - 1) c
  else (m.byte c.cp, ⟨c.cp + 1, c.bitsLeft⟩)

/-! ## The octets of a length -/

/-- The number of octets of a length, its count included. -/
def cerLength (len : Nat) : Nat := if len < 0x80 then 1 else cerOctetCount len + 1

theorem cerOctetCount_bounds {len : Nat} (hlt : len < 2 ^ 31) :
    1 ≤ cerOctetCount len ∧ cerOctetCount len ≤ 4 ∧ len < 2 ^ (8 * cerOctetCount len) := by
  unfold cerOctetCount
  split_ifs <;> omega

/-- The octets from the cursor on, behind the ones read so far. -/
theorem cerOctets_spec (m : Mem) (k length j : Nat) {c : Cursor} (hc : c.Valid)
    (hj : length < 2 ^ (8 * j)) (hjk : j + k ≤ 7) :
    (cerOctets m k length c).1 = length * 2 ^ (8 * k) + m.field c.pos (8 * k) ∧
      (cerOctets m k length c).2.pos = c.pos + 8 * k := by
  induction k generalizing length j c with
  | zero => simp [cerOctets]
  | succ k ih =>
    obtain ⟨hval, hc', hpos⟩ := getNextNBits_spec m hc (n := 8) (by decide) (by decide)
    have hbyte := m.field_lt c.pos 8
    have hsmall : 2 ^ (8 * j) ≤ 2 ^ 48 := Nat.pow_le_pow_right (by decide) (by omega)
    have hnext : (if length = 2 ^ 64 - 1 then m.field c.pos 8
        else (length <<< 8) % 2 ^ 64 ||| m.field c.pos 8) = length * 2 ^ 8 + m.field c.pos 8 := by
      rw [if_neg (by omega), Nat.shiftLeft_eq, Nat.mod_eq_of_lt (by omega), ← Nat.shiftLeft_eq,
        Nat.shiftLeft_add_eq_or_of_lt hbyte]
    have hgrow : length * 2 ^ 8 + m.field c.pos 8 < 2 ^ (8 * (j + 1)) := by
      rw [show 8 * (j + 1) = 8 * j + 8 by omega, Nat.pow_add]
      omega
    obtain ⟨hrest, hpos'⟩ := ih (length * 2 ^ 8 + m.field c.pos 8) (j + 1) hc' hgrow (by omega)
    rw [cerOctets]
    simp only [hval, hnext]
    refine ⟨?_, ?_⟩
    · have hlast := m.field_lt (c.pos + 8) (8 * k)
      rw [hrest, hpos, show 8 * (k + 1) = 8 + 8 * k by omega, Mem.field_add,
        ← Nat.shiftLeft_add_eq_or_of_lt hlast, Nat.shiftLeft_eq, Nat.pow_add]
      ring
    · rw [hpos', hpos]
      omega

/-- The first octet read takes the place of the `-1`. -/
theorem cerOctets_none (m : Mem) {k : Nat} (hk : 0 < k) (hk' : k ≤ 7) {c : Cursor}
    (hc : c.Valid) :
    (cerOctets m k (2 ^ 64 - 1) c).1 = m.field c.pos (8 * k) ∧
      (cerOctets m k (2 ^ 64 - 1) c).2.pos = c.pos + 8 * k := by
  have hzero : cerOctets m k (2 ^ 64 - 1) c = cerOctets m k 0 c := by
    obtain ⟨k, rfl⟩ : ∃ i, k = i + 1 := ⟨k - 1, by omega⟩
    simp [cerOctets]
  have hspec := cerOctets_spec m k 0 0 hc (by decide) (by omega)
  rwa [Nat.zero_mul, Nat.zero_add, ← hzero] at hspec

/-- The long form: the top bit, the count and the octets. -/
theorem parseAsnCerLenEnc_long {m : Mem} {p k len : Nat} (hk : 0 < k) (hk' : k ≤ 7)
    (hlen : len < 2 ^ (8 * k))
    (h : m.bits (8 * p) (1 + 7 + 8 * k) = toBits 1 1 ++ toBits 7 k ++ toBits (8 * k) len) :
    (parseAsnCerLenEnc m ⟨p, 8⟩).1 = len ∧
      (parseAsnCerLenEnc m ⟨p, 8⟩).2.pos = 8 * p + 8 + 8 * k := by
  rw [Mem.bits_add, Mem.bits_add] at h
  obtain ⟨hhead, hvalue⟩ := List.append_inj h (by simp)
  obtain ⟨htop, hcount⟩ := List.append_inj hhead (by simp)
  have hbyte : m.byte p = 128 + k := by
    rw [← Mem.field_byte, show (8 : Nat) = 1 + 7 from rfl, Mem.field_add,
      Mem.field_eq_of_bits m htop, Mem.field_eq_of_bits m hcount,
      Nat.mod_eq_of_lt (a := k) (by omega)]
    exact (Nat.shiftLeft_add_eq_or_of_lt (show k < 2 ^ 7 by omega) 1).symm
  have hcur : (⟨p, 7⟩ : Cursor).Valid := ⟨(by decide : 0 < 7), (by decide : 7 ≤ 8)⟩
  obtain ⟨hval, hc, hpos⟩ := getNextNBits_spec m hcur (n := 7) (by decide) (by decide)
  have hstart : (⟨p, 7⟩ : Cursor).pos = 8 * p + 1 := rfl
  rw [hstart] at hval hpos
  rw [Mem.field_eq_of_bits m hcount, Nat.mod_eq_of_lt (by omega)] at hval
  obtain ⟨hoctets, hend⟩ := cerOctets_none m hk hk' hc
  rw [parseAsnCerLenEnc, if_pos (by rw [hbyte, and_top_ne_zero (by omega)]; omega)]
  simp only [hval]
  rw [hoctets, hend, hpos, show 8 * p + 1 + 7 = 8 * p + (1 + 7) by omega,
    Mem.field_eq_of_bits m hvalue, Nat.mod_eq_of_lt hlen]
  exact ⟨rfl, rfl⟩

theorem parseAsnCerLenEnc_short {m : Mem} {p len : Nat} (hlen : len < 0x80)
    (h : m.byte p = len) : parseAsnCerLenEnc m ⟨p, 8⟩ = (len, ⟨p + 1, 8⟩) := by
  rw [parseAsnCerLenEnc, if_neg (by rw [h, and_top_ne_zero (by omega)]; omega), h]

/-! ## Writing and reading back -/

/-- The short form is that of `asn_push_encoded_len`. -/
theorem asnPushCerEncodedLen_short (bp : Abuf) {len : Nat} (hlt : len < 0x80) :
    asnPushCerEncodedLen bp len = asnPushEncodedLen bp len := by
  unfold asnPushCerEncodedLen asnPushEncodedLen
  rw [if_pos hlt, if_pos hlt]

/-- The long form, with headroom for all of it. -/
theorem asnPushCerEncodedLen_long {bp : Abuf} {len : Nat} (hlo : 0x80 ≤ len) (hlt : len < 2 ^ 31)
    (hh : bp.headHeadspaceBits ≤ 8) (hhead : 0 < bp.head)
    (hroom : 8 * bp.head + 8 * cerLength len ≤ bp.startPos) :
    Pushed bp (asnPushCerEncodedLen bp len).2
        (toBits 1 1 ++ toBits 7 (cerOctetCount len) ++ toBits (8 * cerOctetCount len) len) ∧
      (asnPushCerEncodedLen bp len).2.headHeadspaceBits < 8 := by
  obtain ⟨hk, -, -⟩ := cerOctetCount_bounds hlt
  rw [cerLength, if_neg (by omega)] at hroom
  obtain ⟨hvalue, hh₁⟩ := asnPushBits_spec len (n := 8 * cerOctetCount len) (by omega) hh hhead
    (by omega)
  have hstart₁ := hvalue.startPos
  rw [length_toBits] at hstart₁
  obtain ⟨hcount, hh₂⟩ := asnPushBits_spec (cerOctetCount len) (n := 7) (by decide) hh₁.le
    (hvalue.head.symm ▸ hhead) (by rw [hvalue.head]; omega)
  have hstart₂ := hcount.startPos
  rw [length_toBits] at hstart₂
  obtain ⟨htop, hh₃⟩ := asnPushBits_spec 1 (n := 1) (by decide) hh₂.le
    (by rw [hcount.head, hvalue.head]; exact hhead)
    (by rw [hcount.head, hvalue.head]; omega)
  have hpush := (hvalue.trans hcount).trans htop
  rw [← List.append_assoc] at hpush
  rw [asnPushCerEncodedLen, if_pos (by omega), if_neg (by omega)]
  simp only
  rw [if_neg (by omega)]
  exact ⟨hpush, hh₃⟩

/-- What `asn_push_CER_encoded_len` owes its caller on an octet-aligned abuf: after a success
the length is read back at the new front, up to the old one; without the headroom the result
is `-1` and the abuf as before. -/
def CerContract (bp : Abuf) (len : Nat) : Prop :=
  let r := asnPushCerEncodedLen bp len
  let parsed := parseAsnCerLenEnc r.2.mem (.ofPos r.2.startPos)
  (r.1 ≠ -1 → parsed.1 = len ∧ parsed.2.pos = bp.startPos) ∧
    (abufHeadroomBits bp < 8 * cerLength len → r = (-1, bp))

/-- An aligned abuf: `abuf_isaligned`, and `data` inside the block. -/
structure Aligned (bp : Abuf) : Prop where
  headspace : bp.headHeadspaceBits = 0 ∨ bp.headHeadspaceBits = 8
  head : 0 < bp.head
  data : bp.head ≤ bp.data

theorem Aligned.startPos_mod {bp : Abuf} (ha : Aligned bp) : bp.startPos % 8 = 0 := by
  have hstart : bp.startPos = 8 * bp.data + bp.headHeadspaceBits := rfl
  rcases ha.headspace with h | h <;> omega

theorem cerContract_short {bp : Abuf} (ha : Aligned bp) {len : Nat} (hpos : 0 < len)
    (hlt : len < 0x80) : CerContract bp len := by
  have hstart : bp.startPos = 8 * bp.data + bp.headHeadspaceBits := rfl
  have hdata := ha.data
  have hone : cerLength len = 1 := if_pos hlt
  have hlist : (lengthOctets len).length = 1 := by rw [length_lengthOctets, if_pos hlt]
  unfold CerContract
  rw [asnPushCerEncodedLen_short bp hlt, hone]
  by_cases hroom : 8 * bp.head + 8 ≤ bp.startPos
  · have hheadroom : 8 ≤ abufHeadroomBits bp := by
      simp only [abufHeadroomBits]
      omega
    have hle : bp.headHeadspaceBits ≤ 8 := by
      rcases ha.headspace with h | h <;> omega
    obtain ⟨hpush, -⟩ := asnPushEncodedLen_spec bp hpos (show len < 0x4000 by omega) hle ha.head
      (by omega)
    have hnew := hpush.new
    have hback := hpush.startPos
    rw [length_octetBits, hlist] at hnew hback
    have hmod := ha.startPos_mod
    set front := (asnPushEncodedLen bp len).2.startPos with hfront
    have hfront8 : front = 8 * (front / 8) := by omega
    have hbyte : (asnPushEncodedLen bp len).2.mem.byte (front / 8) = len := by
      rw [octetBits_lengthOctets, if_pos hlt, hfront8] at hnew
      rw [Mem.byte_eq_of_bits hnew, Nat.mod_eq_of_lt (by omega)]
    have hcur : Cursor.ofPos front = ⟨front / 8, 8⟩ := by
      rw [Cursor.ofPos, show front % 8 = 0 by omega]
    simp only
    rw [hcur, parseAsnCerLenEnc_short hlt hbyte]
    refine ⟨fun _ => ⟨rfl, ?_⟩, fun hno => ?_⟩
    · simp only [Cursor.pos]
      omega
    · omega
  · have h0 : bp.headHeadspaceBits = 0 := by
      rcases ha.headspace with h | h <;> omega
    have hfail : asnPushEncodedLen bp len = (-1, bp) := by
      rw [asnPushEncodedLen, if_pos hpos, if_pos hlt, if_neg (by omega), if_pos h0,
        if_neg (by omega)]
    rw [hfail]
    exact ⟨fun h => absurd rfl h, fun _ => rfl⟩

theorem cerContract_long_iff {bp : Abuf} (ha : Aligned bp) {len : Nat} (hlo : 0x80 ≤ len)
    (hlt : len < 2 ^ 31) :
    CerContract bp len ↔ 8 * cerLength len ≤ abufHeadroomBits bp := by
  obtain ⟨hk, hk', hfit⟩ := cerOctetCount_bounds hlt
  have hlong : cerLength len = cerOctetCount len + 1 := if_neg (by omega)
  have hle : bp.headHeadspaceBits ≤ 8 := by
    rcases ha.headspace with h | h <;> omega
  constructor
  · -- the result is `0`, never `-1`
    rintro ⟨-, hfail⟩
    have hres : (asnPushCerEncodedLen bp len).1 = 0 := by
      rw [asnPushCerEncodedLen, if_pos (by omega), if_neg (by omega)]
      simp only
      rw [if_neg (by omega)]
    by_contra hno
    rw [hfail (by omega)] at hres
    cases hres
  · intro hheadroom
    have hroom : 8 * bp.head + 8 * cerLength len ≤ bp.startPos :=
      le_abufHeadroomBits_iff.mp (by exact_mod_cast hheadroom)
    obtain ⟨hpush, -⟩ := asnPushCerEncodedLen_long hlo hlt hle ha.head hroom
    have hnew := hpush.new
    have hback := hpush.startPos
    simp only [List.length_append, length_toBits] at hnew hback
    have hmod := ha.startPos_mod
    set front := (asnPushCerEncodedLen bp len).2.startPos with hfront
    have hcur : Cursor.ofPos front = ⟨front / 8, 8⟩ := by
      rw [Cursor.ofPos, show front % 8 = 0 by omega]
    rw [show front = 8 * (front / 8) by omega] at hnew
    obtain ⟨hval, hend⟩ := parseAsnCerLenEnc_long (by omega) (by omega) hfit hnew
    unfold CerContract
    simp only
    rw [← hfront, hcur]
    refine ⟨fun _ => ⟨hval, ?_⟩, fun hno => ?_⟩
    · rw [hend]
      omega
    · omega

/-- A length of one octet keeps the contract in any case, a longer one iff there is headroom
for all of its octets and their count. -/
theorem asnPushCerEncodedLen_contract_iff {bp : Abuf} (ha : Aligned bp) {len : Nat}
    (hpos : 1 ≤ len) (hlt : len < 2 ^ 31) :
    CerContract bp len ↔ len < 0x80 ∨ 8 * (cerOctetCount len + 1 : Int) ≤ abufHeadroomBits bp := by
  by_cases hshort : len < 0x80
  · exact iff_of_true (cerContract_short ha hpos hshort) (.inl hshort)
  · rw [cerContract_long_iff ha (by omega) hlt, cerLength, if_neg hshort]
    simp only [hshort, false_or]
    push_cast
    rfl

/-- An empty aligned abuf behind `headroom` bytes of headroom. -/
def behindHeadroom (headroom : Nat) : Abuf where
  mem := fun _ => 0
  head := 4096
  size := 16
  headHeadspaceBits := 0
  data := 4096 + headroom
  tail := 4096 + headroom
  tailBitsLeft := 8
  end_ := 4112
  written := []

theorem aligned_behindHeadroom (headroom : Nat) : Aligned (behindHeadroom headroom) :=
  ⟨.inl rfl, (by decide : 0 < 4096), Nat.le_add_right 4096 headroom⟩

theorem asnPushCerEncodedLen_contract_70000 : CerContract (behindHeadroom 4) 70000 :=
  (asnPushCerEncodedLen_contract_iff (aligned_behindHeadroom 4) (by decide) (by decide)).mpr
    (by decide)

/-- Without headroom for the octets of `200` and their count, the call still returns `0`. -/
theorem asnPushCerEncodedLen_unreported :
    Aligned (behindHeadroom 1) ∧ ¬ CerContract (behindHeadroom 1) 200 ∧
      (asnPushCerEncodedLen (behindHeadroom 1) 200).1 = 0 ∧
      (asnPushCerEncodedLen (behindHeadroom 1) 200).2.data = 4096 := by
  refine ⟨aligned_behindHeadroom 1, ?_, by decide, by decide⟩
  rw [cerContract_long_iff (aligned_behindHeadroom 1) (by decide) (by decide)]
  decide

end SatComm.Asnbuf
