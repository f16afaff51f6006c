import SatComm.Asnbuf.Length

/-!
# Open types: `abuf_reserve_headspace`, `abuf_pad_to_even_octet`, `abuf_merge`

An open type is built in an abuf of its own, since its length comes first. The first byte of that
abuf leaves out as many bits as are used in the tail byte of the message, the content is padded
to whole octets, the length goes in front, and the result is merged: the two shared bytes are
or-ed, the others copied.

`closeType_spec` says what is in the abuf of a closed open type, `abufMerge_spec` what a merge of
matching abufs appends.
-/

namespace SatComm.Asnbuf

open Bits Abuf

/-! ## The code -/

/-- `abuf_reserve_headspace`, for an abuf without headspace bits. -/
def abufReserveHeadspace (bp : Abuf) (reservedBits : Nat) : Abuf :=
  { (asnNcatBits bp 0 reservedBits).2 with headHeadspaceBits := reservedBits }

/-- `abuf_pad_to_even_octet`. The bit length is taken as a `uint8_t`. -/
def abufPadToEvenOctet (bp : Abuf) : Abuf :=
  let bitLen := (abufBitsLen bp % 256).toNat
  if 0 < bitLen then
    let mod8 := bitLen % 8
    if mod8 ≠ 0 then (asnNcatBits bp 0 (8 - mod8)).2 else bp
  else bp

/-- `abuf_put` for a number of bytes that may be negative. -/
def abufPutInt (bp : Abuf) (bytes : Int) : Option Nat × Abuf :=
  if (bp.end_ : Int) < bp.tail + bytes then (none, bp)
  else (some bp.tail, bp.withTail (bp.tail + bytes).toNat bp.tailBitsLeft)

/-- `memcpy(cp, p, n)`, from another abuf. -/
def memcpy (bp : Abuf) (cp : Nat) (os : List Nat) : Abuf :=
  { bp with mem := bp.mem.storeAll cp os, written := List.range' cp os.length ++ bp.written }

/-- `abuf_merge`: the result and both abufs. On whole octets the pointer is moved on before it is
compared with `NULL`. -/
def abufMerge (first addOn : Abuf) : Int × Abuf × Abuf :=
  let addOnLen := abufByteLen addOn
  let copy := fun (cp : Nat) (first addOn : Abuf) =>
    let first := (memcpy first cp (addOn.mem.octets addOn.data addOnLen.toNat)).withTail
      first.tail addOn.tailBitsLeft
    (abufByteLen first, first, addOn)
  if addOn.headHeadspaceBits ≠ 0 ∨ first.tailBitsLeft ≠ 0 then
    let addOn := addOn.poke addOn.data (addOn.peek addOn.data ||| first.peek first.tail)
    match abufPutInt first (addOnLen - 1) with
    | (some cp, first) => copy cp first addOn
    | (none, first) => (-1, first, addOn)
  else
    match abufPutInt first addOnLen with
    | (some cp, first) => copy (cp + 1) first addOn
    | (none, first) => copy 1 first addOn

/-! ## Merging -/

/-- The bits of the first byte that belong to somebody else are clear. -/
def HeadClean (bp : Abuf) : Prop := bp.mem.byte bp.data < 2 ^ (8 - bp.headHeadspaceBits)

/-- The shared byte: `h` bits of one, the rest of the other. -/
theorem or_byte_bit {m m' : Mem} {a a' h i : Nat} (hi : i < 8)
    (hhead : m.byte a < 2 ^ (8 - h)) (htail : m'.byte a' % 2 ^ (8 - h) = 0) (hh : h ≤ 8) :
    (m.byte a ||| m'.byte a').testBit (7 - i) =
      if i < h then m'.bit (8 * a' + i) else m.bit (8 * a + i) := by
  rw [Nat.testBit_or, Mem.bit_of_byte m' a' i hi, Mem.bit_of_byte m a i hi]
  split
  · have hclear : (m.byte a).testBit (7 - i) = false :=
      Nat.testBit_lt_two_pow (hhead.trans_le (Nat.pow_le_pow_right (by decide) (by omega)))
    rw [hclear, Bool.false_or]
  · have hclear : (m'.byte a').testBit (7 - i) = false := by
      have hmod := Nat.testBit_mod_two_pow (m'.byte a') (8 - h) (7 - i)
      have hlt : 7 - i < 8 - h := by omega
      simpa [htail, hlt] using hmod.symm
    rw [hclear, Bool.or_false]

/-- What a merge copies: the shared byte, then the bytes of the add-on. -/
theorem merged_bit {first addOn : Abuf} {n i : Nat} (hi : i < 8 * n)
    (hhead : HeadClean addOn) (htail : first.mem.byte first.tail % 2 ^ first.tailBitsLeft = 0)
    (hmatch : addOn.headHeadspaceBits + first.tailBitsLeft = 8) :
    (first.mem.storeAll first.tail ((addOn.poke addOn.data
      (addOn.peek addOn.data ||| first.peek first.tail)).mem.octets addOn.data n)).bit
        (8 * first.tail + i) =
      if i < addOn.headHeadspaceBits then first.mem.bit (8 * first.tail + i)
      else addOn.mem.bit (8 * addOn.data + i) := by
  set addOn' := addOn.poke addOn.data (addOn.peek addOn.data ||| first.peek first.tail) with hadd
  have hcopy := Mem.bits_storeAll (m := first.mem) first.tail (addOn'.mem.octets addOn.data n)
  rw [Mem.length_octets, ← Mem.bits_octets, Mem.bits_eq_bits_iff] at hcopy
  rw [hcopy i hi]
  have htl : first.tailBitsLeft = 8 - addOn.headHeadspaceBits := by omega
  by_cases h8 : i < 8
  · rw [hadd, poke_mem, Mem.bit_store_self _ _ _ i h8]
    exact or_byte_bit h8 hhead (htl ▸ htail) (by omega)
  · rw [if_neg (by omega), hadd, poke_mem, Mem.bit_store_of_ne _ _ (by omega)]

/-- A merge of abufs whose ends match. -/
theorem abufMerge_spec {first addOn : Abuf} (hf : Fillable first) (ha : Fillable addOn)
    (hpos : 0 < first.tailBitsLeft) (hlt : first.tailBitsLeft < 8) (hlt' : addOn.tailBitsLeft < 8)
    (hmatch : addOn.headHeadspaceBits + first.tailBitsLeft = 8) (hhead : HeadClean addOn)
    (hord : addOn.data ≤ addOn.tail) (hstart : addOn.startPos ≤ addOn.tailPos)
    (hroom : first.tail + (addOn.tail - addOn.data) ≤ first.end_) :
    Appended first (abufMerge first addOn).2.1 addOn.bits ∧
      Fillable (abufMerge first addOn).2.1 ∧
      (abufMerge first addOn).2.1.tailBitsLeft = addOn.tailBitsLeft := by
  set n := addOn.tail - addOn.data with hn
  have hlen : abufByteLen addOn = (n + 1 : Nat) := by
    unfold abufByteLen
    rw [if_pos (by omega)]
    omega
  set os := (addOn.poke addOn.data (addOn.peek addOn.data ||| first.peek first.tail)).mem.octets
    addOn.data (n + 1) with hos
  have heq : (abufMerge first addOn).2.1 =
      (memcpy first first.tail os).withTail (first.tail + n) addOn.tailBitsLeft := by
    unfold abufMerge abufPutInt
    simp only [hlen]
    rw [if_pos (by omega), if_neg (by omega)]
    simp only [hos, memcpy, Abuf.withTail, Int.toNat_natCast]
    congr 1
    omega
  have hclean := hf.clean hlt
  have hbit : ∀ i, i < 8 * (n + 1) → (abufMerge first addOn).2.1.mem.bit (8 * first.tail + i) =
      if i < addOn.headHeadspaceBits then first.mem.bit (8 * first.tail + i)
      else addOn.mem.bit (8 * addOn.data + i) := by
    intro i hi
    rw [heq]
    exact merged_bit hi hhead hclean hmatch
  have hbits : addOn.bits.length = addOn.tailPos - addOn.startPos := by simp [Abuf.bits]
  have htp : first.tailPos = 8 * first.tail + addOn.headHeadspaceBits := by
    simp only [tailPos]
    omega
  have htp' : addOn.tailPos = 8 * addOn.tail + (8 - addOn.tailBitsLeft) := rfl
  have hst' : addOn.startPos = 8 * addOn.data + addOn.headHeadspaceBits := rfl
  refine ⟨⟨?_, ?_, ?_, ?_⟩, ⟨?_, ?_⟩, ?_⟩
  · rw [heq]
    exact ⟨rfl, rfl, rfl, rfl, rfl⟩
  · rw [hbits, heq, htp]
    simp only [tailPos, withTail_tail, withTail_tailBitsLeft]
    omega
  · intro q hq
    by_cases hin : 8 * first.tail ≤ q
    · obtain ⟨i, rfl⟩ := Nat.exists_eq_add_of_le hin
      rw [hbit i (by omega), if_pos (by omega)]
    · rw [heq]
      exact Mem.bit_storeAll_of_lt os (by omega)
  · rw [hbits]
    unfold Abuf.bits
    rw [Mem.bits_eq_bits_iff]
    intro i hi
    rw [htp, Nat.add_assoc, hbit _ (by omega), if_neg (by omega), hst', Nat.add_assoc]
  · rw [heq]
    exact ha.le
  -- the unused bits of the new tail byte are those of the add-on
  · intro _
    have hclean' := ha.clean hlt'
    rw [← Mem.field_tail addOn.mem ha.le] at hclean'
    have htail : (abufMerge first addOn).2.1.tail = first.tail + n := by rw [heq]; rfl
    have htbl : (abufMerge first addOn).2.1.tailBitsLeft = addOn.tailBitsLeft := by rw [heq]; rfl
    rw [htbl, htail, ← Mem.field_tail _ ha.le, ← hclean']
    unfold Mem.field
    congr 1
    rw [Mem.bits_eq_bits_iff]
    intro i hi
    have hshift : 8 * (first.tail + n) + (8 - addOn.tailBitsLeft) + i =
        8 * first.tail + (8 * n + (8 - addOn.tailBitsLeft) + i) := by omega
    rw [hshift, hbit _ (by omega), if_neg (by omega)]
    congr 1
    omega
  · rw [heq]
    rfl

/-! ## Closing an open type -/

/-- The fields of a length. -/
def lengthFields (len : Nat) : List Field :=
  if len < 0x80 then [⟨8, len⟩] else [⟨16, encodedLen len⟩]

/-- The padding behind content of `n` bits. -/
def padFields (n : Nat) : List Field := if n % 8 = 0 then [] else [⟨8 - n % 8, 0⟩]

/-- An open type: its length in octets, the content and the padding. -/
def openType (fields : List Field) : List Field :=
  lengthFields ((fieldWidth fields + 7) / 8) ++ fields ++ padFields (fieldWidth fields)

theorem fieldBits_lengthFields (len : Nat) :
    fieldBits (lengthFields len) = octetBits (lengthOctets len) := by
  rw [octetBits_lengthOctets]
  unfold lengthFields
  split <;> simp

theorem fieldWidth_lengthFields (len : Nat) :
    fieldWidth (lengthFields len) = 8 * (lengthOctets len).length := by
  rw [← length_fieldBits, fieldBits_lengthFields, length_octetBits]

theorem fieldWidth_padFields (n : Nat) : n + fieldWidth (padFields n) = 8 * ((n + 7) / 8) := by
  unfold padFields
  split
  · rw [fieldWidth_nil]
    omega
  · change n + (8 - n % 8) = _
    omega

theorem ready_ncatAll (fields : List Field) {bp : Abuf} (hr : Ready bp)
    (hw : ∀ f ∈ fields, 0 < f.width) (hroom : bp.tailPos + fieldWidth fields ≤ 8 * bp.end_) :
    Ready (ncatAll bp fields) := by
  induction fields generalizing bp with
  | nil => exact hr
  | cons f fs ih =>
    rw [fieldWidth_cons] at hroom
    obtain ⟨-, happ, hrdy, -⟩ :=
      asnNcatBits_spec hr.toFillable f.value (hw f (by simp))
        (show bp.tailPos + f.width ≤ _ by omega)
    have hpos := happ.tailPos
    rw [length_toBits] at hpos
    change Ready (ncatAll (asnNcatBits bp f.value f.width).2 fs)
    exact ih hrdy (fun g hg => hw g (by simp [hg])) (by rw [happ.frame.end_]; omega)

theorem abufBitsLen_eq {bp : Abuf} (hr : Ready bp) (hord : bp.startPos ≤ bp.tailPos) :
    abufBitsLen bp = (bp.tailPos - bp.startPos : Nat) := by
  have hle := hr.le
  simp only [abufBitsLen]
  simp only [startPos, tailPos] at *
  omega

/-- The padding is that of the whole bit length, although only its low byte is looked at. -/
theorem abufPadToEvenOctet_eq {bp : Abuf} {n : Nat} (h : abufBitsLen bp = n) :
    abufPadToEvenOctet bp = ncatAll bp (padFields n) := by
  unfold abufPadToEvenOctet padFields
  simp only [h]
  by_cases h0 : n % 8 = 0
  · rw [if_pos h0]
    split
    · rw [if_neg (by omega)]
      rfl
    · rfl
  · rw [if_neg h0, if_pos (by omega), if_pos (by omega)]
    have hmod : ((n : Int) % 256).toNat % 8 = n % 8 := by omega
    simp only [hmod]
    rfl

/-- An abuf that is ready for the content of an open type: `r` bits of its first byte are left to
the message, everything behind them is free. -/
structure Reserved (bp : Abuf) (r : Nat) : Prop where
  ready : Ready bp
  headspace : bp.headHeadspaceBits = r
  empty : bp.tailPos = bp.startPos
  pos : 0 < r
  lt : r < 8
  head : 0 < bp.head

/-- A closed open type with the bit string `bs`, ready to be merged behind `r` bits of a byte. -/
structure Closed (bp bp' : Abuf) (r : Nat) (bs : List Bool) : Prop where
  bits : bp'.bits = bs
  ready : Ready bp'
  tailBitsLeft : bp'.tailBitsLeft = 8 - r
  headspace : bp'.headHeadspaceBits = r
  clean : HeadClean bp'
  order : bp'.startPos + bs.length = bp'.tailPos
  head : bp'.head = bp.head
  size : bp'.size = bp.size
  end_ : bp'.end_ = bp.end_

/-- Whole octets pushed in front of a started byte leave the other bits of the new first byte
clear. -/
theorem headClean_asnPushBits {bp : Abuf} (data : Nat) {k : Nat} (hk : 0 < k)
    (hpos : 0 < bp.headHeadspaceBits) (hlt : bp.headHeadspaceBits < 8)
    (hroom : 8 * bp.head + 8 * k ≤ bp.startPos) : HeadClean (asnPushBits bp data (8 * k)).2 := by
  have hstart : bp.startPos = 8 * bp.data + bp.headHeadspaceBits := rfl
  have hcond : 8 * k ≠ 0 ∧ ((8 * k : Nat) : Int) ≤ abufHeadroomBits bp := by
    refine ⟨by omega, ?_⟩
    simp only [abufHeadroomBits]
    omega
  rw [asnPushBits, if_pos hcond]
  simp only
  rw [if_neg (by omega)]
  set bp₁ := pushInto bp data bp.headHeadspaceBits with hbp₁
  set x := data >>> bp.headHeadspaceBits
  have hr : (8 * k - bp.headHeadspaceBits) % 8 = 8 - bp.headHeadspaceBits := by omega
  unfold pushRest
  simp only [hr]
  rw [if_pos (by omega)]
  set bp₂ := pushBytes ((8 * k - bp.headHeadspaceBits) / 8) x bp₁
  set y := x >>> (8 * ((8 * k - bp.headHeadspaceBits) / 8)) &&&
    (1 <<< (8 - bp.headHeadspaceBits) - 1) with hy
  have hylt : y < 2 ^ (8 - bp.headHeadspaceBits) := by
    rw [hy, Nat.one_shiftLeft, Nat.and_two_pow_sub_one_eq_mod]
    exact Nat.mod_lt _ (by positivity)
  have hsub : 8 - (8 - bp.headHeadspaceBits) = bp.headHeadspaceBits := by omega
  unfold trimHead
  rw [if_neg (by simp only [Abuf.withHead]; omega)]
  unfold HeadClean
  simp only [Abuf.withHead, poke_mem, Mem.byte_store_self, hsub]
  exact (Nat.mod_le _ _).trans_lt hylt

theorem headClean_asnPushEncodedLen (bp : Abuf) {len : Nat} (hlen : 0 < len) (hlt : len < 0x4000)
    (hpos : 0 < bp.headHeadspaceBits) (hlt' : bp.headHeadspaceBits < 8)
    (hroom : 8 * bp.head + 16 ≤ bp.startPos) : HeadClean (asnPushEncodedLen bp len).2 := by
  rw [asnPushEncodedLen, if_pos hlen]
  by_cases hone : len < 0x80
  · rw [if_pos hone, if_neg (by omega), if_neg (by omega)]
    exact headClean_asnPushBits len (k := 1) (by decide) hpos hlt' (by omega)
  · rw [if_neg hone, if_pos hlt]
    exact headClean_asnPushBits _ (k := 2) (by decide) hpos hlt' (by omega)

theorem padFields_pos {n : Nat} {f : Field} (h : f ∈ padFields n) : 0 < f.width := by
  unfold padFields at h
  split at h
  · cases h
  · rw [List.mem_singleton] at h
    subst h
    simp only
    omega

/-- A push keeps the unused bits of the tail byte. -/
theorem Pushed.fillable {bp bp' : Abuf} {bs : List Bool} (h : Pushed bp bp' bs)
    (hf : Fillable bp) (hord : bp.startPos ≤ bp.tailPos) : Fillable bp' := by
  refine ⟨h.tailBitsLeft.symm ▸ hf.le, fun hlt => ?_⟩
  rw [h.tailBitsLeft] at hlt ⊢
  have hclean := hf.clean hlt
  rw [h.tail, ← Mem.field_tail _ hf.le]
  rw [← Mem.field_tail _ hf.le] at hclean
  rw [← hclean]
  unfold Mem.field
  congr 1
  exact Mem.bits_congr fun q hq _ => h.kept q (hord.trans hq)

/-- The content and its padding. -/
theorem padded_spec {bp : Abuf} {r : Nat} (h : Reserved bp r) (fields : List Field)
    (hw : ∀ f ∈ fields, 0 < f.width)
    (hroom : bp.tailPos + fieldWidth fields + 8 ≤ 8 * bp.end_) :
    Appended bp (abufPadToEvenOctet (ncatAll bp fields))
        (fieldBits (fields ++ padFields (fieldWidth fields))) ∧
      Ready (abufPadToEvenOctet (ncatAll bp fields)) := by
  have hpad := fieldWidth_padFields (fieldWidth fields)
  obtain ⟨happ, -, -⟩ := ncatAll_spec fields h.ready.toFillable hw (by omega)
  have hrdy := ready_ncatAll fields h.ready hw (by omega)
  have htp := happ.tailPos
  rw [length_fieldBits] at htp
  have hst := happ.frame.startPos
  have hlen : abufBitsLen (ncatAll bp fields) = fieldWidth fields := by
    rw [abufBitsLen_eq hrdy (by rw [htp, hst, h.empty]; omega), htp, hst, h.empty]
    omega
  have hroom' : (ncatAll bp fields).tailPos + fieldWidth (padFields (fieldWidth fields)) ≤
      8 * (ncatAll bp fields).end_ := by
    rw [htp, happ.frame.end_]
    omega
  rw [abufPadToEvenOctet_eq hlen, fieldBits_append]
  obtain ⟨happ', -, -⟩ := ncatAll_spec (padFields (fieldWidth fields)) hrdy.toFillable
    (fun f hf => padFields_pos hf) hroom'
  exact ⟨happ.trans happ', ready_ncatAll _ hrdy (fun f hf => padFields_pos hf) hroom'⟩

/-- Content, padding and length. -/
theorem closeType_spec {bp : Abuf} {r : Nat} (h : Reserved bp r) (fields : List Field)
    (hw : ∀ f ∈ fields, 0 < f.width) (hne : 0 < fieldWidth fields)
    (hroom : bp.tailPos + fieldWidth fields + 8 ≤ 8 * bp.end_)
    (hhead : 8 * bp.head + 16 ≤ bp.startPos) (hlen : fieldWidth fields < 0x10000) :
    Closed bp (asnPushLen (abufPadToEvenOctet (ncatAll bp fields))).2 r
      (fieldBits (openType fields)) := by
  obtain ⟨happ, hrdy⟩ := padded_spec h fields hw hroom
  set w := fieldWidth fields with hwdef
  set k := (w + 7) / 8 with hk
  set bp₁ := abufPadToEvenOctet (ncatAll bp fields) with hbp₁
  have hpad := fieldWidth_padFields w
  have hcontent : (fieldBits (fields ++ padFields w)).length = 8 * k := by
    rw [length_fieldBits, fieldWidth_append]
    exact hpad
  have htp := happ.tailPos
  rw [hcontent] at htp
  have hst := happ.frame.startPos
  have hemp := h.empty
  have hlen₁ : abufBitsLen bp₁ = (8 * k : Nat) := by
    rw [abufBitsLen_eq hrdy (by rw [htp, hst, hemp]; omega), htp, hst, hemp]
    omega
  rw [asnPushLen_eq hlen₁, show (8 * k + 7) / 8 = k by omega]
  have hhs₁ : bp₁.headHeadspaceBits = r := happ.frame.headHeadspaceBits.trans h.headspace
  have hrlt := h.lt
  have hrpos := h.pos
  have hoct : (lengthOctets k).length ≤ 2 := by
    rw [length_lengthOctets]
    split <;> decide
  obtain ⟨hpush, hhs⟩ := asnPushEncodedLen_spec bp₁ (show 0 < k by omega) (by omega)
    (by omega) (by rw [happ.frame.head]; exact h.head) (by rw [happ.frame.head, hst]; omega)
  have hclean := headClean_asnPushEncodedLen bp₁ (show 0 < k by omega) (by omega)
    (by omega) (by omega) (by rw [happ.frame.head, hst]; omega)
  set bp₂ := (asnPushEncodedLen bp₁ k).2 with hbp₂
  have hst₂ := hpush.startPos
  rw [length_octetBits] at hst₂
  have htp₂ : bp₂.tailPos = bp₁.tailPos := by
    unfold tailPos
    rw [hpush.tail, hpush.tailBitsLeft]
  have hlenBits : (fieldBits (openType fields)).length = 8 * (lengthOctets k).length + 8 * k := by
    rw [length_fieldBits, openType, fieldWidth_append, fieldWidth_append, ← hwdef, ← hk,
      fieldWidth_lengthFields]
    omega
  -- positions and pointers agree modulo eight
  have hmod₁ : bp₁.startPos = 8 * bp₁.data + bp₁.headHeadspaceBits := rfl
  have hmod₂ : bp₂.startPos = 8 * bp₂.data + bp₂.headHeadspaceBits := rfl
  have htpd : bp₁.tailPos = 8 * bp₁.tail + (8 - bp₁.tailBitsLeft) := rfl
  have htle := hrdy.le
  have htpos := hrdy.pos
  have hfill := hpush.fillable hrdy.toFillable (by omega)
  refine ⟨?_, ⟨hfill, hpush.tailBitsLeft.symm ▸ htpos⟩, ?_, by omega, hclean, ?_,
    hpush.head.trans happ.frame.head, hpush.size.trans happ.frame.size,
    hpush.end_.trans happ.frame.end_⟩
  · have hkept : bp₂.mem.bits bp₁.startPos (8 * k) = fieldBits (fields ++ padFields w) := by
      rw [← hcontent, hst, ← hemp]
      refine (Mem.bits_congr fun q hq _ => hpush.kept q ?_).trans happ.new
      rw [hst, ← hemp]
      exact hq
    have hnew := hpush.new
    rw [length_octetBits] at hnew
    rw [Abuf.bits, show bp₂.tailPos - bp₂.startPos = 8 * (lengthOctets k).length + 8 * k by omega,
      Mem.bits_add, show bp₂.startPos + 8 * (lengthOctets k).length = bp₁.startPos by omega, hkept,
      hnew, openType, List.append_assoc, ← hwdef, ← hk, fieldBits_append (lengthFields k),
      fieldBits_lengthFields]
  · rw [hpush.tailBitsLeft]
    omega
  · rw [hlenBits, htp₂]
    omega

/-! ## A whole open type -/

/-- An abuf over a block of the given size. -/
structure Block (bp : Abuf) (size : Nat) : Prop where
  head : 0 < bp.head
  size_eq : bp.size = size
  end_eq : bp.end_ = bp.head + size

theorem Block.of_eq {bp bp' : Abuf} {size : Nat} (h : Block bp size) (hhead : bp'.head = bp.head)
    (hsize : bp'.size = bp.size) (hend : bp'.end_ = bp.end_) : Block bp' size :=
  ⟨hhead ▸ h.head, hsize.trans h.size_eq, by rw [hend, hhead, h.end_eq]⟩

/-- An abuf as `abuf_alloc` and `abuf_purge` leave it. -/
structure Blank (bp : Abuf) (size headroom : Nat) : Prop extends Block bp size where
  data : bp.data = bp.head + headroom
  tail : bp.tail = bp.head + headroom
  tailBitsLeft : bp.tailBitsLeft = 8
  headspace : bp.headHeadspaceBits = 0

theorem blank_abufPurge {bp : Abuf} {size headroom : Nat} (h : Block bp size)
    (hroom : headroom < size) : Blank (abufPurge bp headroom) size headroom := by
  have hsize := h.size_eq
  unfold abufPurge
  rw [if_pos (by omega)]
  exact ⟨⟨h.head, hsize, h.end_eq⟩, rfl, rfl, rfl, rfl⟩

theorem reserved_abufReserveHeadspace {bp : Abuf} {size headroom r : Nat}
    (h : Blank bp size headroom) (hpos : 0 < r) (hlt : r < 8) (hroom : headroom < size) :
    Reserved (abufReserveHeadspace bp r) r ∧
      (abufReserveHeadspace bp r).startPos = 8 * (bp.head + headroom) + r ∧
      (abufReserveHeadspace bp r).head = bp.head ∧ (abufReserveHeadspace bp r).size = bp.size ∧
      (abufReserveHeadspace bp r).end_ = bp.end_ := by
  have hstart : bp.tailPos = 8 * (bp.head + headroom) := by
    rw [tailPos, h.tail, h.tailBitsLeft, Nat.sub_self, Nat.add_zero]
  obtain ⟨-, happ, hrdy, -⟩ := asnNcatBits_spec (fillable_of_empty h.tailBitsLeft) 0 hpos
    (by rw [hstart, h.end_eq]; omega)
  have htp := happ.tailPos
  rw [hstart, length_toBits] at htp
  have hst : (abufReserveHeadspace bp r).startPos = 8 * (bp.head + headroom) + r := by
    change 8 * (asnNcatBits bp 0 r).2.data + r = _
    rw [happ.frame.data, h.data]
  refine ⟨⟨?_, rfl, htp.trans hst.symm, hpos, hlt, ?_⟩, hst, happ.frame.head, happ.frame.size,
    happ.frame.end_⟩
  · exact ⟨⟨hrdy.le, hrdy.clean⟩, hrdy.pos⟩
  · exact happ.frame.head.symm ▸ h.head

/-- The open type with the given fields, built in `ext` and merged behind `bp`. -/
def mergeType (bp ext : Abuf) (fields : List Field) : Int × Abuf × Abuf :=
  let ext := abufReserveHeadspace ext (8 - bp.tailBitsLeft)
  let ext := (asnPushLen (abufPadToEvenOctet (ncatAll ext fields))).2
  abufMerge bp (abufTrim ext)

theorem fieldWidth_openType (fields : List Field) :
    fieldWidth (openType fields) = 8 * ((lengthOctets ((fieldWidth fields + 7) / 8)).length +
      (fieldWidth fields + 7) / 8) := by
  have hpad := fieldWidth_padFields (fieldWidth fields)
  rw [openType, fieldWidth_append, fieldWidth_append, fieldWidth_lengthFields]
  omega

/-- An open type behind a started byte. -/
theorem mergeType_spec {bp ext : Abuf} {size headroom : Nat} (hr : Ready bp)
    (hlt : bp.tailBitsLeft < 8) (hb : Blank ext size headroom) (hhr : 2 ≤ headroom)
    (fields : List Field) (hw : ∀ f ∈ fields, 0 < f.width) (hne : 0 < fieldWidth fields)
    (hsize : fieldWidth fields + 8 * headroom + 16 ≤ 8 * size) (hlen : fieldWidth fields < 0x10000)
    (hroom : bp.tailPos + fieldWidth (openType fields) ≤ 8 * bp.end_) :
    Appended bp (mergeType bp ext fields).2.1 (fieldBits (openType fields)) ∧
      Ready (mergeType bp ext fields).2.1 ∧
      (mergeType bp ext fields).2.1.tailBitsLeft = bp.tailBitsLeft ∧
      Block (mergeType bp ext fields).2.2 size := by
  have hpos := hr.pos
  obtain ⟨hres, hst, hhead, hsz, hend⟩ := reserved_abufReserveHeadspace hb
    (show 0 < 8 - bp.tailBitsLeft by omega) (by omega) (by omega)
  set ext₁ := abufReserveHeadspace ext (8 - bp.tailBitsLeft) with hext₁
  have hclosed := closeType_spec hres fields hw hne
    (by rw [hres.empty, hst, hend, hb.end_eq]; omega) (by rw [hhead, hst]; omega) hlen
  have heq : mergeType bp ext fields = abufMerge bp (abufTrim
      (asnPushLen (abufPadToEvenOctet (ncatAll ext₁ fields))).2) := rfl
  rw [heq]
  set ext₂ := (asnPushLen (abufPadToEvenOctet (ncatAll ext₁ fields))).2 with hext₂
  have htbl := hclosed.tailBitsLeft
  have hhs := hclosed.headspace
  have htrim : abufTrim ext₂ = ext₂ := by
    have hne₁ : ¬ ext₂.headHeadspaceBits = 8 := by omega
    have hne₂ : ¬ ext₂.tailBitsLeft = 8 := by omega
    simp only [abufTrim, if_neg hne₁, if_neg hne₂]
  have horder := hclosed.order
  rw [length_fieldBits] at horder
  have hstd : ext₂.startPos = 8 * ext₂.data + ext₂.headHeadspaceBits := rfl
  have htpd : ext₂.tailPos = 8 * ext₂.tail + (8 - ext₂.tailBitsLeft) := rfl
  have hbtp : bp.tailPos = 8 * bp.tail + (8 - bp.tailBitsLeft) := rfl
  have hocts := fieldWidth_openType fields
  rw [htrim]
  obtain ⟨happ, hfill, htl⟩ := abufMerge_spec hr.toFillable hclosed.ready.toFillable hpos hlt
    (by omega) (by omega) hclosed.clean (by omega) (by omega) (by omega)
  rw [hclosed.bits] at happ
  have hblock : Block ext₂ size :=
    (hb.toBlock.of_eq hhead hsz hend).of_eq hclosed.head hclosed.size hclosed.end_
  refine ⟨happ, ⟨hfill, ?_⟩, ?_, ?_⟩
  · rw [htl]
    omega
  · rw [htl]
    omega
  · apply hblock.of_eq
    all_goals
      unfold abufMerge
      simp only
      split
      · split <;> rfl
      · split <;> rfl

end SatComm.Asnbuf
