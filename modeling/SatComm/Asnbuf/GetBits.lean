import SatComm.Asnbuf.Ncat

/-!
# Reading bits back: `get_next_n_bits`

A reader is a byte pointer and the number of bits of that byte still to be read. The source
has one case for each number of further bytes a field reaches into. A field that ends with
its byte is read by the case for one byte more, which masks all of that byte away
(`bits_from_last_byte = 0`); the byte is consulted all the same.
-/

namespace SatComm.Asnbuf

open Bits Abuf

/-! ## The code -/

/-- `*cpp` and `*bits_left_p`. -/
structure Cursor where
  cp : Nat
  bitsLeft : Nat
deriving DecidableEq, Repr

namespace Cursor

/-- The position of the next bit. -/
def pos (c : Cursor) : Nat := 8 * c.cp + (8 - c.bitsLeft)

/-- The cursor whose next bit is the one at position `p`. -/
def ofPos (p : Nat) : Cursor := ⟨p / 8, 8 - p % 8⟩

/-- `bits_left` as every reader leaves it. -/
def Valid (c : Cursor) : Prop := 0 < c.bitsLeft ∧ c.bitsLeft ≤ 8

theorem valid_ofPos (p : Nat) : (ofPos p).Valid := by
  constructor
  · simp only [ofPos]
    omega
  · simp only [ofPos]
    omega

@[simp] theorem pos_ofPos (p : Nat) : (ofPos p).pos = p := by
  simp only [pos, ofPos]
  omega

/-- The last lines of `get_next_n_bits`: a byte without bits left is passed. -/
def leave (cp bitsLeft : Nat) : Cursor := if bitsLeft = 0 then ⟨cp + 1, 8⟩ else ⟨cp, bitsLeft⟩

theorem leave_spec (cp : Nat) {bl : Nat} (h : bl ≤ 8) :
    (leave cp bl).Valid ∧ (leave cp bl).pos = 8 * cp + (8 - bl) := by
  unfold leave
  split
  · rename_i h0
    refine ⟨⟨by simp, by simp⟩, ?_⟩
    simp only [pos, h0]
    omega
  · rename_i h0
    exact ⟨⟨by simp only; omega, h⟩, rfl⟩

end Cursor

/-- `calc_bytes_needed_for_n_more_bits`. `n` is at least one and `bits_left` at most eight, so
a negative difference is above `-8` and C's division takes it to `0`, as subtraction does
here. -/
def calcBytesNeededForNMoreBits (n bitsLeft : Nat) : Nat := ((n - bitsLeft) / 8 + 1) % 256

/-- `*cp & ((1 << bits_left) - 1)`: all that is left of the first byte. -/
def firstBits (m : Mem) (cp bitsLeft : Nat) : Nat := m.byte cp &&& (1 <<< bitsLeft - 1)

/-- `(*cp & (((1 << n) - 1) << shift)) >> shift`. -/
def maskedBits (m : Mem) (cp n shift : Nat) : Nat :=
  (m.byte cp &&& ((1 <<< n - 1) <<< shift)) >>> shift

/-- The loop of the `default` case, for `n` bits behind the first byte: the result, the pointer
and the bits that are left for the last byte. -/
def getManyBytes (m : Mem) : Nat → Nat → Nat → Nat → Nat × Nat × Nat
  | 0, result, cp, n => (result, cp, n)
  | k + 1, result, cp, n =>
    if 8 < n then getManyBytes m k (result <<< 8 ||| m.byte cp) (cp + 1) (n - 8)
    else (result, cp, n)

/-- The `switch` of `get_next_n_bits` over the number of further bytes: the result, the pointer
to the last byte and the bits left there. -/
def getBytes (m : Mem) (cp bitsLeft n : Nat) : Nat → Nat × Nat × Nat
  | 0 => (maskedBits m cp n (bitsLeft - n), cp, bitsLeft - n)
  | 1 =>
    let fromSecond := n - bitsLeft
    let shift := 8 - fromSecond
    (firstBits m cp bitsLeft <<< fromSecond ||| maskedBits m (cp + 1) fromSecond shift,
      cp + 1, shift)
  | 2 =>
    let fromThird := n - 8 - bitsLeft
    let shift := 8 - fromThird
    (firstBits m cp bitsLeft <<< (8 + fromThird) ||| m.byte (cp + 1) <<< fromThird |||
      maskedBits m (cp + 2) fromThird shift, cp + 2, shift)
  | 3 =>
    let fromLast := n - 16 - bitsLeft
    let shift := 8 - fromLast
    (((firstBits m cp bitsLeft <<< 8 ||| m.byte (cp + 1)) <<< 8 ||| m.byte (cp + 2))
      <<< fromLast ||| maskedBits m (cp + 3) fromLast shift, cp + 3, shift)
  | 4 =>
    let fromLast := n - 24 - bitsLeft
    let shift := 8 - fromLast
    ((((firstBits m cp bitsLeft <<< 8 ||| m.byte (cp + 1)) <<< 8 ||| m.byte (cp + 2)) <<< 8 |||
      m.byte (cp + 3)) <<< fromLast ||| maskedBits m (cp + 4) fromLast shift, cp + 4, shift)
  | _ =>
    -- more than 32 bits; no caller gets here
    let (result, cp, n) :=
      getManyBytes m (n - bitsLeft) (firstBits m cp bitsLeft) (cp + 1) (n - bitsLeft)
    (result ||| maskedBits m cp n (8 - n), cp, bitsLeft)

/-- The number of bytes behind `*cpp` that a call consults. -/
def addtlBytesNeeded (c : Cursor) (n : Nat) : Nat :=
  if c.bitsLeft < n then calcBytesNeededForNMoreBits n c.bitsLeft else 0

/-- `get_next_n_bits`: the value and the cursor behind it. `result` is an `unsigned int`. -/
def getNextNBits (m : Mem) (c : Cursor) (n : Nat) : Nat × Cursor :=
  let (result, cp, bitsLeft) := getBytes m c.cp c.bitsLeft n (addtlBytesNeeded c n)
  (result % 2 ^ 32, Cursor.leave cp bitsLeft)

/-- Fields of the given widths, one `get_next_n_bits` call each. -/
def readAll (m : Mem) : Cursor → List Nat → List Nat × Cursor
  | c, [] => ([], c)
  | c, n :: ns =>
    let (v, c) := getNextNBits m c n
    let (vs, c) := readAll m c ns
    (v :: vs, c)

/-! ## What one call returns -/

theorem firstBits_eq_field (m : Mem) {cp l : Nat} (hl : l ≤ 8) :
    firstBits m cp l = m.field (8 * cp + (8 - l)) l := by
  rw [Mem.field_tail m hl, firstBits, Nat.one_shiftLeft, Nat.and_two_pow_sub_one_eq_mod]

theorem maskedBits_eq (m : Mem) (cp n shift : Nat) :
    maskedBits m cp n shift = m.byte cp >>> shift % 2 ^ n := by
  apply Nat.eq_of_testBit_eq
  intro i
  rw [maskedBits, Nat.one_shiftLeft, Nat.testBit_shiftRight, Nat.testBit_and,
    Nat.testBit_shiftLeft, Nat.testBit_two_pow_sub_one, Nat.testBit_mod_two_pow,
    Nat.testBit_shiftRight]
  simp [Bool.and_comm]

/-- The first `n` bits of a byte, masked out. -/
theorem maskedBits_eq_field (m : Mem) (cp : Nat) {n : Nat} (hn : n ≤ 8) :
    maskedBits m cp n (8 - n) = m.field (8 * cp) n := by
  have h := Mem.field_inside m (a := cp) (l := 8) le_rfl hn
  rw [maskedBits_eq, ← h, Nat.sub_self, Nat.add_zero]

/-- A window that starts with the last `l` bits of a byte. -/
theorem field_first (m : Mem) {cp l : Nat} (hl : l ≤ 8) (n : Nat) :
    m.field (8 * cp + (8 - l)) (l + n) =
      firstBits m cp l <<< n ||| m.field (8 * (cp + 1)) n := by
  rw [Mem.field_add, firstBits_eq_field m hl]
  congr 2
  omega

/-- A window that starts with a whole byte. -/
theorem field_whole (m : Mem) (cp n : Nat) :
    m.field (8 * cp) (8 + n) = m.byte cp <<< n ||| m.field (8 * (cp + 1)) n := by
  rw [Mem.field_add, Mem.field_byte]
  congr 2

/-- The cases that leave the first byte: its `l` bits, `k` whole bytes and `r` bits more. -/
theorem getBytes_across (m : Mem) (cp : Nat) {l k r : Nat} (hl : l ≤ 8) (hk : k < 4)
    (hr : r < 8) :
    getBytes m cp l (l + (8 * k + r)) (k + 1) =
      (m.field (8 * cp + (8 - l)) (l + (8 * k + r)), cp + (k + 1), 8 - r) := by
  obtain rfl | rfl | rfl | rfl : k = 0 ∨ k = 1 ∨ k = 2 ∨ k = 3 := by omega
  · have e : l + (8 * 0 + r) - l = r := by omega
    simp only [getBytes, e, maskedBits_eq_field m _ hr.le]
    rw [field_first m hl, Nat.mul_zero, Nat.zero_add]
  · have e : l + (8 * 1 + r) - 8 - l = r := by omega
    simp only [getBytes, e, maskedBits_eq_field m _ hr.le]
    rw [field_first m hl, Nat.mul_one, field_whole, Nat.lor_assoc]
  · have e : l + (8 * 2 + r) - 16 - l = r := by omega
    have e' : 8 * 2 + r = 8 + (8 + r) := by omega
    simp only [getBytes, e, maskedBits_eq_field m _ hr.le]
    rw [field_first m hl, e', field_whole, field_whole]
    simp only [Nat.shiftLeft_or_distrib, ← Nat.shiftLeft_add, Nat.lor_assoc, Nat.add_assoc]
  · have e : l + (8 * 3 + r) - 24 - l = r := by omega
    have e' : 8 * 3 + r = 8 + (8 + (8 + r)) := by omega
    simp only [getBytes, e, maskedBits_eq_field m _ hr.le]
    rw [field_first m hl, e', field_whole, field_whole, field_whole]
    simp only [Nat.shiftLeft_or_distrib, ← Nat.shiftLeft_add, Nat.lor_assoc, Nat.add_assoc]

/-- One call: the value of the window under the cursor, and the cursor behind it. -/
theorem getNextNBits_spec (m : Mem) {c : Cursor} (hc : c.Valid) {n : Nat} (hn : 0 < n)
    (hn' : n ≤ 32) :
    (getNextNBits m c n).1 = m.field c.pos n ∧ (getNextNBits m c n).2.Valid ∧
      (getNextNBits m c n).2.pos = c.pos + n := by
  obtain ⟨hpos, hle⟩ := hc
  have hfit : m.field c.pos n % 2 ^ 32 = m.field c.pos n :=
    Nat.mod_eq_of_lt ((m.field_lt _ _).trans_le (Nat.pow_le_pow_right (by omega) hn'))
  unfold getNextNBits addtlBytesNeeded
  by_cases hlt : c.bitsLeft < n
  · rw [if_pos hlt]
    obtain ⟨k, r, hr8, hn⟩ : ∃ k r, r < 8 ∧ n = c.bitsLeft + (8 * k + r) :=
      ⟨(n - c.bitsLeft) / 8, (n - c.bitsLeft) % 8, by omega, by omega⟩
    have hk : calcBytesNeededForNMoreBits n c.bitsLeft = k + 1 := by
      unfold calcBytesNeededForNMoreBits
      omega
    rw [hk, hn, getBytes_across m c.cp hle (by omega) hr8, ← hn]
    obtain ⟨hvalid, hp⟩ := Cursor.leave_spec (c.cp + (k + 1)) (show 8 - r ≤ 8 by omega)
    refine ⟨hfit, hvalid, ?_⟩
    rw [hp, Cursor.pos]
    omega
  · rw [if_neg hlt]
    obtain ⟨hvalid, hp⟩ := Cursor.leave_spec c.cp (show c.bitsLeft - n ≤ 8 by omega)
    refine ⟨?_, hvalid, ?_⟩
    · rw [← hfit, Cursor.pos, Mem.field_inside m hle (by omega)]
      simp only [getBytes, maskedBits_eq]
    · simp only [getBytes, hp]
      rw [Cursor.pos]
      omega

theorem readAll_spec (m : Mem) (fields : List Field) {c : Cursor} (hc : c.Valid)
    (hw : ∀ f ∈ fields, 1 ≤ f.width ∧ f.width ≤ 32)
    (hbits : m.bits c.pos (fieldWidth fields) = fieldBits fields) :
    (readAll m c (fields.map Field.width)).1 = fields.map fun f => f.value % 2 ^ f.width := by
  induction fields generalizing c with
  | nil => rfl
  | cons f fs ih =>
    obtain ⟨hw₁, hw₂⟩ := hw f (by simp)
    obtain ⟨hval, hc', hpos⟩ := getNextNBits_spec m hc hw₁ hw₂
    rw [fieldWidth_cons, fieldBits_cons, Mem.bits_add] at hbits
    obtain ⟨hfst, hrest⟩ := List.append_inj hbits (by simp)
    rw [Mem.field_eq_of_bits m hfst] at hval
    rw [← hpos] at hrest
    have hvs := ih hc' (fun g hg => hw g (by simp [hg])) hrest
    simp only [List.map_cons, readAll, hval, hvs]

/-! ## The round trip -/

/-- The abufs that writing gets to: allocated, purged or reset to any headroom, given a
headspace, written to and trimmed in any order. -/
inductive Built : Abuf → Prop
  | alloc {head size headroom : Nat} {bp : Abuf} :
    abufAlloc head size headroom = some bp → Built bp
  | purge {bp : Abuf} (headroom : Nat) : Built bp → Built (abufPurge bp headroom)
  | reset {bp : Abuf} (headroom : Nat) : Built bp → Built (abufReset bp headroom)
  | trim {bp : Abuf} : Built bp → Built (abufTrim bp)
  | ncat {bp : Abuf} (data bitlen : Nat) : Built bp → Built (asnNcatBits bp data bitlen).2
  | headspace {bp : Abuf} (reserved : Nat) :
    Built bp → Built { bp with headHeadspaceBits := reserved }

/-- A started tail byte is clean wherever writing gets to. -/
theorem Built.fillable {bp : Abuf} (h : Built bp) : Fillable bp := by
  induction h with
  | alloc h =>
    unfold abufAlloc at h
    split at h
    · obtain rfl := Option.some.inj h
      exact fillable_of_empty rfl
    · cases h
  | purge headroom _ ih =>
    unfold abufPurge
    split
    · exact fillable_of_empty rfl
    · exact ih
  | reset headroom _ _ => exact fillable_of_empty rfl
  | trim _ ih => exact fillable_abufTrim ih
  | ncat data bitlen _ ih => exact fillable_asnNcatBits ih data bitlen
  | headspace reserved _ ih => exact ⟨ih.le, ih.clean⟩

/-- Fields written with room for all of them are read back from the first written bit on, the
bits before them stay, and the length grows by their widths. -/
theorem readAll_ncatAll {bp : Abuf} (hb : Built bp) (fields : List Field)
    (hw : ∀ f ∈ fields, 1 ≤ f.width ∧ f.width ≤ 32)
    (hroom : bp.tailPos + fieldWidth fields ≤ 8 * bp.end_) :
    let bp' := ncatAll bp fields
    (readAll bp'.mem (Cursor.ofPos bp.tailPos) (fields.map Field.width)).1 =
        fields.map (fun f => f.value % 2 ^ f.width) ∧
      (∀ q, q < bp.tailPos → bp'.mem.bit q = bp.mem.bit q) ∧
      abufBitsLen bp' = abufBitsLen bp + fieldWidth fields := by
  intro bp'
  obtain ⟨happ, hfill, -⟩ := ncatAll_spec fields hb.fillable (fun f hf => (hw f hf).1) hroom
  refine ⟨?_, happ.kept, ?_⟩
  · apply readAll_spec _ _ (Cursor.valid_ofPos _) hw
    rw [Cursor.pos_ofPos, ← length_fieldBits]
    exact happ.new
  · have hpos := happ.tailPos
    have hle := hb.fillable.le
    have hle' := hfill.le
    simp only [tailPos, length_fieldBits] at hpos
    simp only [abufBitsLen, bp', happ.frame.data, happ.frame.headHeadspaceBits]
    omega

/-- Three fields written behind three bits of an abuf with five bytes of room. -/
theorem readAll_ncatAll_three_fields :
    ∃ bp, Built bp ∧ bp.tailBitsLeft = 5 ∧
      (readAll (ncatAll bp [⟨5, 21⟩, ⟨8, 200⟩, ⟨19, 300000⟩]).mem (Cursor.ofPos bp.tailPos)
        [5, 8, 19]).1 = [21, 200, 300000] := by
  obtain ⟨bp, hbp⟩ : ∃ bp, abufAlloc 4096 8 2 = some bp := ⟨_, rfl⟩
  refine ⟨_, (Built.alloc hbp).ncat 5 3, ?_, ?_⟩
  · obtain rfl := Option.some.inj hbp
    rfl
  · have hroom : (asnNcatBits bp 5 3).2.tailPos +
        fieldWidth [⟨5, 21⟩, ⟨8, 200⟩, ⟨19, 300000⟩] ≤ 8 * (asnNcatBits bp 5 3).2.end_ := by
      obtain rfl := Option.some.inj hbp
      decide
    exact (readAll_ncatAll ((Built.alloc hbp).ncat 5 3) [⟨5, 21⟩, ⟨8, 200⟩, ⟨19, 300000⟩]
      (by simp) hroom).1

end SatComm.Asnbuf
