import SatComm.Asnbuf.Abuf

/-!
# Appending bits: `asn_ncat_bits`

The writer has three ways in: a whole byte into an empty tail byte, a field that fits into
the tail byte, and a field that fills the tail byte and continues in the bytes behind it.
Only the third looks at the room that is left, and it does so after it has filled the tail
byte.

`asnNcatBits_spec` is the one statement about a call with room: the block and the front of
the message stay, the field is appended, and nothing else of the message changes.
`asnNcatBits_overflow` is the one about a call without room: the first store lies outside
the block, or the call returns `-1` and the message has grown all the same.
-/

namespace SatComm.Asnbuf

open Bits Abuf

/-! ## The code -/

/-- `*tail = v; tail++`. -/
def putByte (bp : Abuf) (v : Nat) : Abuf :=
  (bp.poke bp.tail v).withTail (bp.tail + 1) bp.tailBitsLeft

/-- The loop of the slow branch: `k` whole bytes of `data` while `8 * k + r` bits are still to
be added, most significant byte first. -/
def ncatBytes (data r : Nat) : Nat → Abuf → Abuf
  | 0, bp => bp
  | k + 1, bp =>
    ncatBytes data r k (putByte bp ((data &&& (0xff <<< (8 * k + r))) >>> (8 * k + r)))

/-- The rest of the slow branch: whole bytes, then the last seven or fewer bits. -/
def ncatRest (data bitsToAdd : Nat) (bp : Abuf) : Abuf :=
  let bp := ncatBytes data (bitsToAdd % 8) (bitsToAdd / 8) bp
  let bitsToAdd := bitsToAdd % 8
  if bitsToAdd ≠ 0 then
    (bp.poke bp.tail ((data &&& (1 <<< bitsToAdd - 1)) <<< (8 - bitsToAdd))).withTail
      bp.tail (bp.tailBitsLeft - bitsToAdd)
  else bp

/-- `if (tail_bits_left == 8) *tail = 0`: an empty tail byte is cleared before it is used. -/
def clearTail (bp : Abuf) : Abuf := if bp.tailBitsLeft = 8 then bp.poke bp.tail 0 else bp

/-- `*tail |= v`. -/
def orTail (bp : Abuf) (v : Nat) : Abuf := bp.poke bp.tail (bp.peek bp.tail ||| v)

/-- A field that fits into the tail byte. -/
def ncatInside (bp : Abuf) (data bitlen : Nat) : Abuf :=
  let bp' := orTail bp ((data % 256 &&& (1 <<< bitlen - 1)) <<< (bp.tailBitsLeft - bitlen))
  bp'.withTail bp.tail (bp.tailBitsLeft - bitlen)

/-- The first step of the slow branch: the free bits of the tail byte get the top bits of the
field, `bitsToAdd` bits of which are then left. -/
def fillTail (bp : Abuf) (data bitsToAdd : Nat) : Abuf :=
  (orTail bp ((data &&& ((1 <<< bp.tailBitsLeft - 1) <<< bitsToAdd)) >>> bitsToAdd)).withTail
    bp.tail 0

/-- `asn_ncat_bits`: the result and the abuf afterwards. -/
def asnNcatBits (bp : Abuf) (data bitlen : Nat) : Int × Abuf :=
  if bitlen = 0 then (-1, bp)
  else
    let bp := clearTail bp
    if bitlen ≤ bp.tailBitsLeft then
      if bitlen = 8 ∧ bp.tailBitsLeft = 8 then
        -- perfect add of eight bits; the only way out that skips `abuf_tail_ready`
        (0, putByte bp data)
      else (0, abufTailReady (ncatInside bp data bitlen))
    else
      let bitsToAdd := bitlen - bp.tailBitsLeft
      let bp := fillTail bp data bitsToAdd
      if 0 ≤ abufCheckPutTailroom bp bitsToAdd then
        (0, abufTailReady (ncatRest data bitsToAdd (abufTailReady bp)))
      else (-1, abufTailReady bp)

/-- A field of a message: a width in bits and a 32-bit value. -/
structure Field where
  width : Nat
  value : Nat
deriving DecidableEq, Repr

/-- Append a list of fields, one `asn_ncat_bits` call each, ignoring the results. -/
def ncatAll (bp : Abuf) (fields : List Field) : Abuf :=
  fields.foldl (fun bp f => (asnNcatBits bp f.value f.width).2) bp

/-- The bit string of a list of fields. -/
def fieldBits (fields : List Field) : List Bool := fields.flatMap fun f => toBits f.width f.value

/-- The number of bits of a list of fields. -/
def fieldWidth (fields : List Field) : Nat := (fields.map Field.width).sum

@[simp] theorem length_fieldBits (fields : List Field) :
    (fieldBits fields).length = fieldWidth fields := by
  simp [fieldBits, fieldWidth, List.length_flatMap]

@[simp] theorem fieldBits_nil : fieldBits [] = [] := rfl

@[simp] theorem fieldBits_cons (f : Field) (fs : List Field) :
    fieldBits (f :: fs) = toBits f.width f.value ++ fieldBits fs := rfl

@[simp] theorem fieldBits_append (fs gs : List Field) :
    fieldBits (fs ++ gs) = fieldBits fs ++ fieldBits gs := by
  simp [fieldBits]

@[simp] theorem fieldWidth_nil : fieldWidth [] = 0 := rfl

@[simp] theorem fieldWidth_cons (f : Field) (fs : List Field) :
    fieldWidth (f :: fs) = f.width + fieldWidth fs := rfl

@[simp] theorem fieldWidth_append (fs gs : List Field) :
    fieldWidth (fs ++ gs) = fieldWidth fs + fieldWidth gs := by
  simp [fieldWidth]

/-! ## A tail that can be written to -/

/-- The unused bits of a started tail byte are clear. Every writer relies on it, since a
started byte is only ever or-ed into. -/
def TailClean (bp : Abuf) : Prop :=
  bp.tailBitsLeft < 8 → bp.mem.byte bp.tail % 2 ^ bp.tailBitsLeft = 0

/-- What a writer needs to find: at most eight free bits in the tail byte, all clear. -/
structure Fillable (bp : Abuf) : Prop where
  le : bp.tailBitsLeft ≤ 8
  clean : TailClean bp

/-- A fillable tail with a free bit. -/
structure Ready (bp : Abuf) : Prop extends Fillable bp where
  pos : 0 < bp.tailBitsLeft

theorem fillable_of_empty {bp : Abuf} (h : bp.tailBitsLeft = 8) : Fillable bp :=
  ⟨h.le, fun hlt => absurd h hlt.ne⟩

theorem ready_of_empty {bp : Abuf} (h : bp.tailBitsLeft = 8) : Ready bp :=
  ⟨fillable_of_empty h, by omega⟩

/-- `bp'` is `bp` with the bit string `bs` appended. -/
structure Appended (bp bp' : Abuf) (bs : List Bool) : Prop where
  frame : SameFrame bp bp'
  tailPos : bp'.tailPos = bp.tailPos + bs.length
  kept : ∀ q, q < bp.tailPos → bp'.mem.bit q = bp.mem.bit q
  new : bp'.mem.bits bp.tailPos bs.length = bs

theorem Appended.refl (bp : Abuf) : Appended bp bp [] := ⟨.refl bp, rfl, fun _ _ => rfl, rfl⟩

theorem Appended.trans {a b c : Abuf} {xs ys : List Bool} (h : Appended a b xs)
    (h' : Appended b c ys) : Appended a c (xs ++ ys) where
  frame := h.frame.trans h'.frame
  tailPos := by rw [h'.tailPos, h.tailPos, List.length_append]; omega
  kept q hq := by rw [h'.kept q (by rw [h.tailPos]; omega), h.kept q hq]
  new := by
    rw [List.length_append, Mem.bits_add]
    congr 1
    · refine Eq.trans (Mem.bits_congr fun q _ hq => ?_) h.new
      exact h'.kept q (by rw [h.tailPos]; omega)
    · rw [← h.tailPos]
      exact h'.new

theorem Appended.tail_le {bp bp' : Abuf} {bs : List Bool} (h : Appended bp bp' bs)
    (hle : bp.tailBitsLeft ≤ 8) (hpos : 0 < bp'.tailBitsLeft) : bp.tail ≤ bp'.tail := by
  have := h.tailPos
  simp only [Abuf.tailPos] at this
  omega

theorem Appended.bits {bp bp' : Abuf} {bs : List Bool} (h : Appended bp bp' bs)
    (hord : bp.startPos ≤ bp.tailPos) : bp'.bits = bp.bits ++ bs := by
  have hlen : bp'.tailPos - bp'.startPos = (bp.tailPos - bp.startPos) + bs.length := by
    rw [h.tailPos, h.frame.startPos]
    omega
  rw [Abuf.bits, hlen, h.frame.startPos, Mem.bits_add]
  have hmid : bp.startPos + (bp.tailPos - bp.startPos) = bp.tailPos := by omega
  rw [hmid, h.new]
  congr 1
  exact Mem.bits_congr fun q _ hq => h.kept q (by omega)

/-! ## Single stores -/

/-- Every address stored to between `bp` and `bp'` lies between `lo` and `hi`. -/
def StoresIn (bp bp' : Abuf) (lo hi : Nat) : Prop :=
  ∃ new, bp'.written = new ++ bp.written ∧ ∀ a ∈ new, lo ≤ a ∧ a < hi

theorem StoresIn.refl (bp : Abuf) (lo hi : Nat) : StoresIn bp bp lo hi := ⟨[], rfl, by simp⟩

theorem StoresIn.trans {a b c : Abuf} {lo hi : Nat} (h : StoresIn a b lo hi)
    (h' : StoresIn b c lo hi) : StoresIn a c lo hi := by
  obtain ⟨xs, hx, hxs⟩ := h
  obtain ⟨ys, hy, hys⟩ := h'
  refine ⟨ys ++ xs, by rw [hy, hx, List.append_assoc], ?_⟩
  intro p hp
  rcases List.mem_append.mp hp with hp | hp
  · exact hys p hp
  · exact hxs p hp

theorem StoresIn.mono {bp bp' : Abuf} {lo hi lo' hi' : Nat} (h : StoresIn bp bp' lo hi)
    (hlo : lo' ≤ lo) (hhi : hi ≤ hi') : StoresIn bp bp' lo' hi' := by
  obtain ⟨xs, hx, hxs⟩ := h
  exact ⟨xs, hx, fun a ha => ⟨hlo.trans (hxs a ha).1, (hxs a ha).2.trans_le hhi⟩⟩

theorem storesIn_poke (bp : Abuf) {p lo hi : Nat} (v : Nat) (h₁ : lo ≤ p) (h₂ : p < hi) :
    StoresIn bp (bp.poke p v) lo hi :=
  ⟨[p], rfl, by simp [h₁, h₂]⟩

theorem appended_abufTailReady {bp : Abuf} (hroom : bp.tailBitsLeft = 0 → bp.tail ≠ bp.end_)
    (hle : bp.tailBitsLeft ≤ 8) : Appended bp (abufTailReady bp) [] where
  frame := sameFrame_abufTailReady bp
  tailPos := (abufTailReady_spec hroom hle).1
  kept q _ := by rw [abufTailReady_mem]
  new := by simp

/-- Clearing an empty tail byte appends nothing. -/
theorem appended_clearTail (bp : Abuf) : Appended bp (clearTail bp) [] := by
  unfold clearTail
  split
  · rename_i h8
    refine ⟨sameFrame_poke _ _ _, rfl, ?_, by simp⟩
    intro q hq
    simp only [tailPos, h8] at hq
    exact Mem.bit_store_of_ne _ _ (by omega)
  · exact ⟨.refl bp, rfl, fun _ _ => rfl, by simp⟩

theorem clearTail_clean {bp : Abuf} (h : TailClean bp) (hle : bp.tailBitsLeft ≤ 8) :
    (clearTail bp).mem.byte (clearTail bp).tail % 2 ^ (clearTail bp).tailBitsLeft = 0 := by
  unfold clearTail
  split
  · simp
  · exact h (by omega)

@[simp] theorem clearTail_tail (bp : Abuf) : (clearTail bp).tail = bp.tail := by
  unfold clearTail
  split <;> rfl

@[simp] theorem clearTail_tailBitsLeft (bp : Abuf) :
    (clearTail bp).tailBitsLeft = bp.tailBitsLeft := by
  unfold clearTail
  split <;> rfl

@[simp] theorem clearTail_end (bp : Abuf) : (clearTail bp).end_ = bp.end_ := by
  unfold clearTail
  split <;> rfl

theorem storesIn_clearTail (bp : Abuf) {lo hi : Nat} (h₁ : lo ≤ bp.tail) (h₂ : bp.tail < hi) :
    StoresIn bp (clearTail bp) lo hi := by
  unfold clearTail
  split
  · exact storesIn_poke bp 0 h₁ h₂
  · exact .refl bp lo hi

/-- A whole byte into an empty tail byte. -/
theorem appended_putByte {bp : Abuf} (h8 : bp.tailBitsLeft = 8) (v : Nat) :
    Appended bp (putByte bp v) (toBits 8 v) where
  frame := (sameFrame_poke _ _ _).trans (sameFrame_withTail _ _ _)
  tailPos := by simp only [tailPos, putByte, withTail_tail, withTail_tailBitsLeft, h8,
    length_toBits]; omega
  kept q hq := by
    simp only [tailPos, h8] at hq
    exact Mem.bit_store_of_ne _ _ (by omega)
  new := by
    rw [length_toBits, Mem.bits_eq_toBits_iff]
    intro i hi
    simp only [tailPos, h8, Nat.sub_self, Nat.add_zero, putByte, withTail_mem, poke_mem]
    rw [Mem.bit_store_self _ _ _ _ hi]

/-- The next `n` of the free bits of the tail byte, or-ed in. -/
theorem appended_orTail (bp : Abuf) {n x : Nat} (hle : bp.tailBitsLeft ≤ 8)
    (hn : n ≤ bp.tailBitsLeft) (hz : bp.mem.byte bp.tail % 2 ^ bp.tailBitsLeft = 0)
    (hx : x < 2 ^ n) :
    let bp' := (orTail bp (x <<< (bp.tailBitsLeft - n))).withTail bp.tail (bp.tailBitsLeft - n)
    Appended bp bp' (toBits n x) ∧ bp'.mem.byte bp'.tail % 2 ^ bp'.tailBitsLeft = 0 := by
  obtain ⟨hk, hnew, hc⟩ := Mem.fill_spec bp.mem hle hn hz hx
  refine ⟨⟨(sameFrame_poke _ _ _).trans (sameFrame_withTail _ _ _), ?_, hk, ?_⟩, hc⟩
  · simp only [tailPos, withTail_tail, withTail_tailBitsLeft, length_toBits]
    omega
  · rw [length_toBits]
    exact hnew

/-- The first `n` bits of an empty tail byte, stored over whatever was there. -/
theorem appended_pokeTail (bp : Abuf) {n x : Nat} (h8 : bp.tailBitsLeft = 8) (hn : n ≤ 8)
    (hx : x < 2 ^ n) :
    let bp' := (bp.poke bp.tail (x <<< (8 - n))).withTail bp.tail (bp.tailBitsLeft - n)
    Appended bp bp' (toBits n x) ∧ bp'.mem.byte bp'.tail % 2 ^ bp'.tailBitsLeft = 0 := by
  -- storing is clearing, then filling
  obtain ⟨hk, hnew, hc⟩ := Mem.fill_spec (bp.mem.store bp.tail 0) (a := bp.tail) le_rfl hn
    (by simp) hx
  simp only [Mem.byte_store_self, Nat.zero_mod, Nat.zero_or, Mem.store_store, Nat.sub_self,
    Nat.add_zero] at hk hnew hc
  refine ⟨⟨(sameFrame_poke _ _ _).trans (sameFrame_withTail _ _ _), ?_, ?_, ?_⟩, ?_⟩
  · simp only [tailPos, withTail_tail, withTail_tailBitsLeft, length_toBits, h8]
    omega
  · intro q hq
    simp only [tailPos, h8] at hq
    exact Mem.bit_store_of_ne _ _ (by omega)
  · simpa only [length_toBits, tailPos, h8, Nat.sub_self, Nat.add_zero, withTail_mem,
      poke_mem] using hnew
  · simpa only [withTail_tailBitsLeft, withTail_tail, withTail_mem, poke_mem,
      Mem.byte_store_self, h8] using hc

/-! ## A call with room -/

theorem toBits_mask_shift (data s : Nat) :
    toBits 8 ((data &&& (0xff <<< s)) >>> s) = toBits 8 (data >>> s) := by
  apply toBits_eq_of_testBit
  intro i hi
  have hff : (0xff : Nat) = 2 ^ 8 - 1 := rfl
  rw [hff, Nat.testBit_shiftRight, Nat.testBit_and, Nat.testBit_shiftLeft,
    Nat.testBit_shiftRight, Nat.testBit_two_pow_sub_one]
  simp [hi]

theorem ncatBytes_spec (data r k : Nat) (bp : Abuf) (h8 : bp.tailBitsLeft = 8) :
    Appended bp (ncatBytes data r k bp) (toBits (8 * k) (data >>> r)) ∧
      (ncatBytes data r k bp).tailBitsLeft = 8 ∧ (ncatBytes data r k bp).tail = bp.tail + k ∧
      StoresIn bp (ncatBytes data r k bp) bp.tail (bp.tail + k) := by
  induction k generalizing bp with
  | zero => exact ⟨⟨.refl bp, rfl, fun _ _ => rfl, rfl⟩, h8, rfl, .refl bp _ _⟩
  | succ k ih =>
    rw [ncatBytes]
    have hfirst := appended_putByte h8 ((data &&& (0xff <<< (8 * k + r))) >>> (8 * k + r))
    rw [toBits_mask_shift] at hfirst
    set bp₁ := putByte bp ((data &&& (0xff <<< (8 * k + r))) >>> (8 * k + r)) with hbp₁
    have htail₁ : bp₁.tail = bp.tail + 1 := rfl
    obtain ⟨hrest, htbl, htail, hstores⟩ := ih bp₁ h8
    have hsplit : toBits (8 * (k + 1)) (data >>> r) =
        toBits 8 (data >>> (8 * k + r)) ++ toBits (8 * k) (data >>> r) := by
      rw [show 8 * (k + 1) = 8 + 8 * k by omega, toBits_add, ← Nat.shiftRight_add,
        Nat.add_comm r]
    rw [hsplit]
    refine ⟨hfirst.trans hrest, htbl, by omega, ?_⟩
    have hput : StoresIn bp bp₁ bp.tail (bp.tail + (k + 1)) :=
      ⟨[bp.tail], rfl, by simp⟩
    exact hput.trans (hstores.mono (by omega) (by omega))

/-- The address of the last whole byte of the loop. -/
theorem ncatBytes_last (data r k : Nat) (bp : Abuf) (h8 : bp.tailBitsLeft = 8) :
    ∃ new, (ncatBytes data r (k + 1) bp).written = (bp.tail + k) :: new ++ bp.written := by
  induction k generalizing bp with
  | zero => exact ⟨[], rfl⟩
  | succ k ih =>
    rw [ncatBytes]
    obtain ⟨new, hnew⟩ := ih (putByte bp _) h8
    refine ⟨new ++ [bp.tail], ?_⟩
    have hidx : bp.tail + 1 + k = bp.tail + (k + 1) := by omega
    rw [hnew]
    simp [putByte, hidx]

/-- The bits that follow a filled tail byte. -/
theorem ncatRest_spec (data bitsToAdd : Nat) (bp : Abuf) (h8 : bp.tailBitsLeft = 8) :
    Appended bp (ncatRest data bitsToAdd bp) (toBits bitsToAdd data) ∧
      Ready (ncatRest data bitsToAdd bp) ∧
      StoresIn bp (ncatRest data bitsToAdd bp) bp.tail (bp.tail + (bitsToAdd + 7) / 8) := by
  obtain ⟨happ, htbl, htail, hstores⟩ := ncatBytes_spec data (bitsToAdd % 8) (bitsToAdd / 8) bp h8
  have hsplit : toBits bitsToAdd data =
      toBits (8 * (bitsToAdd / 8)) (data >>> (bitsToAdd % 8)) ++ toBits (bitsToAdd % 8) data := by
    rw [← toBits_add, Nat.div_add_mod]
  have hlt : bitsToAdd % 8 < 8 := Nat.mod_lt _ (by omega)
  unfold ncatRest
  simp only
  set b := ncatBytes data (bitsToAdd % 8) (bitsToAdd / 8) bp with hb
  split
  · rename_i hr
    obtain ⟨hpart, hclean⟩ := appended_pokeTail b (n := bitsToAdd % 8)
      (x := data % 2 ^ (bitsToAdd % 8)) htbl hlt.le (Nat.mod_lt _ (by positivity))
    rw [toBits_mod] at hpart
    rw [Nat.one_shiftLeft, Nat.and_two_pow_sub_one_eq_mod, hsplit]
    refine ⟨happ.trans hpart, ⟨⟨?_, fun _ => hclean⟩, ?_⟩, ?_⟩
    · simp only [withTail_tailBitsLeft]
      omega
    · simp only [withTail_tailBitsLeft]
      omega
    · refine (hstores.mono le_rfl (by omega)).trans ?_
      exact ⟨[b.tail], rfl, by simp; omega⟩
  · rename_i hr
    have hr0 : bitsToAdd % 8 = 0 := by omega
    refine ⟨?_, ready_of_empty htbl, hstores.mono le_rfl (by omega)⟩
    rw [hsplit, hr0]
    rw [hr0] at happ
    simpa [toBits] using happ

theorem fillTail_spec (bp : Abuf) (hle : bp.tailBitsLeft ≤ 8)
    (hz : bp.mem.byte bp.tail % 2 ^ bp.tailBitsLeft = 0) (data rest : Nat) :
    Appended bp (fillTail bp data rest) (toBits bp.tailBitsLeft (data >>> rest)) := by
  have hx : (data &&& ((1 <<< bp.tailBitsLeft - 1) <<< rest)) >>> rest =
      (data >>> rest) % 2 ^ bp.tailBitsLeft := by
    apply Nat.eq_of_testBit_eq
    intro i
    rw [Nat.one_shiftLeft, Nat.testBit_shiftRight, Nat.testBit_and, Nat.testBit_shiftLeft,
      Nat.testBit_two_pow_sub_one, Nat.testBit_mod_two_pow, Nat.testBit_shiftRight]
    simp [Bool.and_comm]
  have h := (appended_orTail bp hle le_rfl hz
    (Nat.mod_lt (data >>> rest) (show 0 < 2 ^ bp.tailBitsLeft by positivity))).1
  rw [toBits_mod, Nat.sub_self, Nat.shiftLeft_zero, ← hx] at h
  exact h

theorem ncatInside_spec (bp : Abuf) (hle : bp.tailBitsLeft ≤ 8)
    (hz : bp.mem.byte bp.tail % 2 ^ bp.tailBitsLeft = 0) (data : Nat) {w : Nat}
    (hw : w ≤ bp.tailBitsLeft) :
    Appended bp (ncatInside bp data w) (toBits w data) ∧ Fillable (ncatInside bp data w) := by
  have hx : data % 256 &&& (1 <<< w - 1) = data % 2 ^ w := by
    have h256 : (256 : Nat) = 2 ^ 8 := rfl
    rw [Nat.one_shiftLeft, Nat.and_two_pow_sub_one_eq_mod, h256,
      Nat.mod_mod_of_dvd _ (Nat.pow_dvd_pow 2 (by omega))]
  obtain ⟨happ, hc⟩ := appended_orTail bp hle hw hz
    (Nat.mod_lt data (show 0 < 2 ^ w by positivity))
  rw [toBits_mod] at happ
  rw [ncatInside, hx]
  refine ⟨happ, ?_, fun _ => hc⟩
  simp only [withTail_tailBitsLeft]
  omega

/-- `abuf_check_put_tailroom` on a full tail byte: room is counted up to and including the
byte at `end`. -/
theorem abufCheckPutTailroom_iff {bp : Abuf} (h0 : bp.tailBitsLeft = 0) {n : Nat} (hn : 0 < n) :
    0 ≤ abufCheckPutTailroom bp n ↔ bp.tail + (n + 7) / 8 ≤ bp.end_ := by
  unfold abufCheckPutTailroom abufTailroom
  simp only [h0]
  rw [if_pos (by omega), if_pos (by omega)]
  split
  · omega
  · omega

/-- A full tail byte that is not at `end` is left. -/
theorem abufTailReady_of_full {bp : Abuf} (h0 : bp.tailBitsLeft = 0) (hne : bp.tail ≠ bp.end_) :
    abufTailReady bp = bp.withTail (bp.tail + 1) 8 := by
  unfold abufTailReady abufTailroom
  rw [if_pos (by omega), if_pos (by omega)]

theorem fillable_abufTailReady {bp : Abuf} (h : Fillable bp) : Fillable (abufTailReady bp) := by
  unfold abufTailReady
  split
  · split
    · exact fillable_of_empty rfl
    · exact h
  · exact h

theorem fillable_abufTrim {bp : Abuf} (h : Fillable bp) : Fillable (abufTrim bp) := by
  have hfull : ∀ b : Abuf, Fillable (b.withTail (b.tail - 1) 0) := fun b =>
    ⟨Nat.zero_le 8, fun _ => Nat.mod_one _⟩
  unfold abufTrim
  split
  · simp only
    split
    · exact hfull _
    · exact ⟨h.le, h.clean⟩
  · simp only
    split
    · exact hfull _
    · exact h

/-- A field inside the tail byte. -/
theorem ncat_short_spec {bp : Abuf} (hf : Fillable bp) (data : Nat) {w : Nat}
    (hw : w ≤ bp.tailBitsLeft) (hroom : bp.tail < bp.end_) :
    let bp' := abufTailReady (ncatInside (clearTail bp) data w)
    Appended bp bp' (toBits w data) ∧ Ready bp' ∧ StoresIn bp bp' bp.tail bp.end_ := by
  intro bp'
  obtain ⟨hle, hclean⟩ := hf
  have hz := clearTail_clean hclean hle
  obtain ⟨hin, hfill⟩ := ncatInside_spec (clearTail bp) (by simpa using hle) hz data
    (by simpa using hw)
  have hne : (ncatInside (clearTail bp) data w).tailBitsLeft = 0 →
      (ncatInside (clearTail bp) data w).tail ≠ (ncatInside (clearTail bp) data w).end_ := by
    intro _
    simp only [ncatInside, orTail, withTail_tail, withTail_end, poke_end, clearTail_tail,
      clearTail_end]
    omega
  have happ := ((appended_clearTail bp).trans hin).trans (appended_abufTailReady hne hfill.le)
  simp only [List.nil_append, List.append_nil] at happ
  refine ⟨happ, ⟨fillable_abufTailReady hfill, (abufTailReady_spec hne hfill.le).2.1⟩, ?_⟩
  refine (storesIn_clearTail bp le_rfl hroom).trans ⟨[bp.tail], ?_, by simp [hroom]⟩
  rw [abufTailReady_written]
  simp [ncatInside, orTail]

/-- A field that goes on behind the tail byte. -/
theorem ncat_long_spec {bp : Abuf} (hf : Fillable bp) (data : Nat) {w : Nat}
    (hw : bp.tailBitsLeft < w) (hroom : bp.tailPos + w ≤ 8 * bp.end_) :
    let b := fillTail (clearTail bp) data (w - bp.tailBitsLeft)
    let bp' := abufTailReady (ncatRest data (w - bp.tailBitsLeft) (abufTailReady b))
    0 ≤ abufCheckPutTailroom b (w - bp.tailBitsLeft : Nat) ∧
      Appended bp bp' (toBits w data) ∧ Ready bp' ∧ StoresIn bp bp' bp.tail bp.end_ := by
  intro b bp'
  obtain ⟨hle, hclean⟩ := hf
  have htp : bp.tailPos = 8 * bp.tail + (8 - bp.tailBitsLeft) := rfl
  have htail : bp.tail < bp.end_ := by omega
  have hfill := fillTail_spec (clearTail bp) (by simpa using hle) (clearTail_clean hclean hle)
    data (w - bp.tailBitsLeft)
  rw [clearTail_tailBitsLeft] at hfill
  have hbl : b.tailBitsLeft = 0 := rfl
  have hbt : b.tail = bp.tail := clearTail_tail bp
  have hbe : b.end_ = bp.end_ := clearTail_end bp
  have hne : b.tail ≠ b.end_ := by omega
  have hnext : abufTailReady b = b.withTail (bp.tail + 1) 8 := by
    rw [abufTailReady_of_full hbl hne, hbt]
  have hstep := appended_abufTailReady (fun _ => hne) (show b.tailBitsLeft ≤ 8 by omega)
  obtain ⟨hrest, hrdy, hst⟩ :=
    ncatRest_spec data (w - bp.tailBitsLeft) (abufTailReady b) (by rw [hnext]; rfl)
  have happ := (((appended_clearTail bp).trans hfill).trans hstep).trans hrest
  have hwidth : bp.tailBitsLeft + (w - bp.tailBitsLeft) = w := by omega
  rw [List.nil_append, List.append_nil, ← toBits_add, hwidth] at happ
  have hbp' : bp' = ncatRest data (w - bp.tailBitsLeft) (abufTailReady b) :=
    abufTailReady_eq_self hrdy.pos
  rw [hbp', abufCheckPutTailroom_iff hbl (by omega)]
  refine ⟨by omega, happ, hrdy, ?_⟩
  have hbS : StoresIn (clearTail bp) (abufTailReady b) bp.tail bp.end_ := by
    refine ⟨[bp.tail], ?_, by simp [htail]⟩
    rw [abufTailReady_written]
    simp [b, fillTail, orTail]
  have htail₁ : (abufTailReady b).tail = bp.tail + 1 := by
    rw [hnext]
    rfl
  exact ((storesIn_clearTail bp le_rfl htail).trans hbS).trans
    (hst.mono (by omega) (by omega))

/-- A call with room for its field. -/
theorem asnNcatBits_spec {bp : Abuf} (hf : Fillable bp) (data : Nat) {w : Nat} (hw : 0 < w)
    (hroom : bp.tailPos + w ≤ 8 * bp.end_) :
    (asnNcatBits bp data w).1 = 0 ∧ Appended bp (asnNcatBits bp data w).2 (toBits w data) ∧
      Ready (asnNcatBits bp data w).2 ∧
      StoresIn bp (asnNcatBits bp data w).2 bp.tail bp.end_ := by
  have hle := hf.le
  have htp : bp.tailPos = 8 * bp.tail + (8 - bp.tailBitsLeft) := rfl
  unfold asnNcatBits
  rw [if_neg (by omega)]
  simp only [clearTail_tailBitsLeft]
  split
  · rename_i hfit
    have htail : bp.tail < bp.end_ := by omega
    split
    · rename_i h8
      obtain ⟨rfl, h8⟩ := h8
      have happ := (appended_clearTail bp).trans
        (appended_putByte ((clearTail_tailBitsLeft bp).trans h8) data)
      refine ⟨rfl, happ, ready_of_empty ?_, ?_⟩
      · simp [putByte, h8]
      · exact (storesIn_clearTail bp le_rfl htail).trans
          ⟨[bp.tail], by simp [putByte], by simp [htail]⟩
    · exact ⟨rfl, ncat_short_spec hf data hfit htail⟩
  · rename_i hfit
    obtain ⟨hchk, hspec⟩ := ncat_long_spec hf data (by omega) hroom
    rw [if_pos hchk]
    exact ⟨rfl, hspec⟩

/-- Every call leaves a tail the next call can fill, whatever its result. -/
theorem fillable_asnNcatBits {bp : Abuf} (hf : Fillable bp) (data w : Nat) :
    Fillable (asnNcatBits bp data w).2 := by
  obtain ⟨hle, hclean⟩ := hf
  have hz := clearTail_clean hclean hle
  unfold asnNcatBits
  split
  · exact ⟨hle, hclean⟩
  · simp only [clearTail_tailBitsLeft]
    split
    · rename_i hfit
      split
      · rename_i h8
        exact fillable_of_empty (by simp [putByte, h8.2])
      · exact fillable_abufTailReady
          (ncatInside_spec _ (by simpa using hle) hz data (by simpa using hfit)).2
    · rename_i hfit
      have hfull : Fillable (fillTail (clearTail bp) data (w - bp.tailBitsLeft)) := by
        refine ⟨?_, fun _ => ?_⟩
        · simp [fillTail]
        · simp [fillTail, Nat.mod_one]
      split
      · rename_i hchk
        rw [abufCheckPutTailroom_iff rfl (by omega)] at hchk
        apply fillable_abufTailReady
        refine (ncatRest_spec data _ _ ?_).2.1.toFillable
        rw [abufTailReady_of_full rfl (by omega)]
        rfl
      · exact fillable_abufTailReady hfull

/-- A run of calls with room for all fields. -/
theorem ncatAll_spec (fields : List Field) {bp : Abuf} (hf : Fillable bp)
    (hw : ∀ f ∈ fields, 0 < f.width) (hroom : bp.tailPos + fieldWidth fields ≤ 8 * bp.end_) :
    Appended bp (ncatAll bp fields) (fieldBits fields) ∧ Fillable (ncatAll bp fields) ∧
      StoresIn bp (ncatAll bp fields) bp.tail bp.end_ := by
  induction fields generalizing bp with
  | nil => exact ⟨.refl bp, hf, .refl bp _ _⟩
  | cons f fs ih =>
    rw [fieldWidth_cons] at hroom
    obtain ⟨-, happ, hrdy, hst⟩ :=
      asnNcatBits_spec hf f.value (hw f (by simp)) (show bp.tailPos + f.width ≤ _ by omega)
    have hpos := happ.tailPos
    rw [length_toBits] at hpos
    obtain ⟨happ', hfill', hst'⟩ := ih hrdy.toFillable (fun g hg => hw g (by simp [hg]))
      (by rw [happ.frame.end_]; omega)
    have hle := happ.tail_le hf.le hrdy.pos
    rw [happ.frame.end_] at hst'
    exact ⟨happ.trans happ', hfill', hst.trans (hst'.mono hle le_rfl)⟩

/-! ## A call without room -/

/-- The bytes behind a filled tail byte are stored up to the last one they need. -/
theorem ncatRest_stores (data : Nat) {bitsToAdd : Nat} (hb : 0 < bitsToAdd) (bp : Abuf)
    (h8 : bp.tailBitsLeft = 8) :
    ∃ new, (ncatRest data bitsToAdd bp).written = new ++ bp.written ∧
      bp.tail + (bitsToAdd + 7) / 8 - 1 ∈ new := by
  obtain ⟨-, -, htail, new, hnew, -⟩ :=
    ncatBytes_spec data (bitsToAdd % 8) (bitsToAdd / 8) bp h8
  unfold ncatRest
  simp only
  split
  · rename_i hr
    refine ⟨(bp.tail + bitsToAdd / 8) :: new, ?_, ?_⟩
    · rw [withTail_written, poke_written, hnew, htail, List.cons_append]
    · rw [List.mem_cons]
      left
      omega
  · rename_i hr
    -- the last whole byte is the last store of the loop
    obtain ⟨k, hk⟩ : ∃ k, bitsToAdd / 8 = k + 1 := ⟨bitsToAdd / 8 - 1, by omega⟩
    have hlast := ncatBytes_last data (bitsToAdd % 8) k bp h8
    rw [hk]
    refine ⟨_, hlast.choose_spec, ?_⟩
    rw [List.mem_cons]
    left
    omega

/-- A call that does not fit stores behind the block, or fails after it has filled the tail
byte. -/
theorem asnNcatBits_overflow {bp : Abuf} (hr : Ready bp) (data : Nat) {w : Nat}
    (hin : bp.tailPos ≤ 8 * bp.end_) (hroom : 8 * bp.end_ < bp.tailPos + w) :
    (∃ new, (asnNcatBits bp data w).2.written = new ++ bp.written ∧ bp.end_ ∈ new) ∨
      ((asnNcatBits bp data w).1 = -1 ∧
        abufBitsLen (asnNcatBits bp data w).2 = abufBitsLen bp + bp.tailBitsLeft) := by
  have htp : bp.tailPos = 8 * bp.tail + (8 - bp.tailBitsLeft) := rfl
  have hpos := hr.pos
  have hle := hr.le
  unfold asnNcatBits
  rw [if_neg (by omega)]
  simp only [clearTail_tailBitsLeft]
  split
  · -- only a tail at `end` is too short for a field that fits its free bits
    rename_i hfit
    have htail : bp.tail = bp.end_ := by omega
    have h8 : bp.tailBitsLeft = 8 := by omega
    left
    split
    · exact ⟨[bp.tail, bp.tail], by simp [putByte, clearTail, h8], by simp [htail]⟩
    · refine ⟨[bp.tail, bp.tail], ?_, by simp [htail]⟩
      rw [abufTailReady_written]
      simp [ncatInside, orTail, clearTail, h8]
  · rename_i hfit
    set b := fillTail (clearTail bp) data (w - bp.tailBitsLeft) with hb
    have hbl : b.tailBitsLeft = 0 := rfl
    have hbt : b.tail = bp.tail := clearTail_tail bp
    have hbe : b.end_ = bp.end_ := clearTail_end bp
    obtain ⟨xs, hxs, -⟩ := storesIn_clearTail bp (Nat.zero_le bp.tail) (Nat.lt_succ_self _)
    have hbw : b.written = bp.tail :: xs ++ bp.written := by
      rw [List.cons_append, ← hxs]
      simp [hb, fillTail, orTail]
    have hiff := abufCheckPutTailroom_iff hbl (show 0 < w - bp.tailBitsLeft by omega)
    rw [hbt, hbe] at hiff
    split
    · -- the check passes with the room counted from the byte that is already full
      rename_i hchk
      rw [hiff] at hchk
      left
      have hne : b.tail ≠ b.end_ := by omega
      rw [abufTailReady_written, abufTailReady_of_full hbl hne, hbt]
      obtain ⟨new, hnew, hmem⟩ := ncatRest_stores data
        (show 0 < w - bp.tailBitsLeft by omega) (b.withTail (bp.tail + 1) 8) rfl
      have hlast : bp.tail + 1 + (w - bp.tailBitsLeft + 7) / 8 - 1 = bp.end_ := by omega
      rw [withTail_tail, hlast] at hmem
      refine ⟨new ++ bp.tail :: xs, ?_, by simp [hmem]⟩
      rw [hnew, withTail_written, hbw, List.append_assoc]
    · rename_i hchk
      rw [hiff] at hchk
      by_cases hend : bp.tail = bp.end_
      · left
        have h8 : bp.tailBitsLeft = 8 := by omega
        refine ⟨bp.tail :: xs, ?_, by simp [hend]⟩
        rw [abufTailReady_written, hbw]
      · right
        have hne : b.tail ≠ b.end_ := by omega
        have hframe := (appended_clearTail bp).frame
        have hbd : b.data = bp.data := hframe.data
        have hbh : b.headHeadspaceBits = bp.headHeadspaceBits := hframe.headHeadspaceBits
        refine ⟨rfl, ?_⟩
        rw [abufTailReady_of_full hbl hne, hbt]
        simp only [abufBitsLen, withTail_tail, withTail_data, withTail_headHeadspaceBits,
          withTail_tailBitsLeft, hbd, hbh]
        omega

end SatComm.Asnbuf
