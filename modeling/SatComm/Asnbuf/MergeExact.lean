import SatComm.Asnbuf.Merge

/-!
# Which merges keep both strings

`abuf_merge` takes one of two branches. Where a byte is shared it ors the tail byte of the first
abuf into the first byte of the add-on and copies from that byte on; on whole octets it copies
behind the tail byte. Either way it counts the bytes of the add-on with `abuf_byte_len`, which
leaves out a fresh tail byte, and takes over the free bits of the add-on's tail byte: a fresh
tail byte of the add-on costs its last octet. A fresh tail byte of the first abuf is or-ed in
although nothing of it belongs to the string, and an unused first byte of the add-on behind it
is copied along.
-/

namespace SatComm.Asnbuf

open Bits Abuf

/-- What `abuf_merge` owes its caller: both strings, one behind the other, and their length in
bytes. -/
def MergeContract (first addOn : Abuf) : Prop :=
  let r := abufMerge first addOn
  r.2.1.bits = first.bits ++ addOn.bits ∧
    abufBitsLen r.2.1 = first.bits.length + addOn.bits.length ∧ r.1 = abufByteLen r.2.1

/-- Two abufs that hold bit strings, with matching ends and room in the first. -/
structure Mergeable (first addOn : Abuf) : Prop where
  fill : Fillable first
  fillAddOn : Fillable addOn
  order : first.startPos ≤ first.tailPos
  orderAddOn : addOn.startPos ≤ addOn.tailPos
  headspace : addOn.headHeadspaceBits ≤ 8
  headClean : HeadClean addOn
  aligned : (addOn.headHeadspaceBits + first.tailBitsLeft) % 8 = 0
  tail : 0 < first.tail
  room : first.tailPos + addOn.bits.length ≤ 8 * first.end_

/-- The pairs whose merge keeps both strings. The add-on has started its tail byte, and it has
either no unused first byte or a first abuf with a full tail byte in front of it; where it is
put on a fresh tail byte, no stale bit of that byte shows. What is left are an add-on with
both ends fresh behind a fresh tail byte, when every octet of it is the stale one. -/
def KeepsBoth (first addOn : Abuf) : Prop :=
  if addOn.headHeadspaceBits = 8 ∧ first.tailBitsLeft = 8 then
    addOn.tailBitsLeft = 8 ∧
      ∀ a, addOn.data < a → a < addOn.tail → addOn.mem.byte a = first.mem.byte first.tail
  else
    addOn.tailBitsLeft ≠ 8 ∧
      (addOn.headHeadspaceBits = 0 ∧ first.tailBitsLeft = 8 →
        ∀ i < 8, i < addOn.bits.length → first.mem.bit (8 * first.tail + i) = true →
          addOn.mem.bit (8 * addOn.data + i) = true)

/-! ## The two branches -/

/-- The first abuf after a merge at `cp`, with the tail at `tail`. -/
def mergedAt (first addOn : Abuf) (cp tail n : Nat) : Abuf :=
  (memcpy first cp (addOn.mem.octets addOn.data n)).withTail tail addOn.tailBitsLeft

/-- The first byte of the add-on takes the tail byte of the first abuf in. -/
def shareByte (first addOn : Abuf) : Abuf :=
  addOn.poke addOn.data (addOn.peek addOn.data ||| first.peek first.tail)

variable {first addOn : Abuf}

theorem abufMerge_shared {n : Nat}
    (h : addOn.headHeadspaceBits ≠ 0 ∨ first.tailBitsLeft ≠ 0)
    (hlen : abufByteLen addOn = n) (hpos : 0 < first.tail)
    (hroom : first.tail + n ≤ first.end_ + 1) :
    abufMerge first addOn =
      (abufByteLen (mergedAt first (shareByte first addOn) first.tail (first.tail + n - 1) n),
        mergedAt first (shareByte first addOn) first.tail (first.tail + n - 1) n,
        shareByte first addOn) := by
  have htail : ((first.tail : Int) + (n - 1)).toNat = first.tail + n - 1 := by omega
  unfold abufMerge abufPutInt
  simp only [hlen]
  rw [if_pos h, if_neg (by omega)]
  simp only [htail]
  rfl

theorem abufMerge_aligned {n : Nat} (h : addOn.headHeadspaceBits = 0)
    (h' : first.tailBitsLeft = 0) (hlen : abufByteLen addOn = n)
    (hroom : first.tail + n ≤ first.end_) :
    abufMerge first addOn =
      (abufByteLen (mergedAt first addOn (first.tail + 1) (first.tail + n) n),
        mergedAt first addOn (first.tail + 1) (first.tail + n) n, addOn) := by
  have htail : ((first.tail : Int) + n).toNat = first.tail + n := by omega
  unfold abufMerge abufPutInt
  simp only [hlen]
  rw [if_neg (by simp [h, h']), if_neg (by omega)]
  simp only [htail]
  rfl

/-- What is copied to `cp`, bit by bit. -/
theorem bit_mergedAt {cp tail n i : Nat} (hi : i < 8 * n) :
    (mergedAt first addOn cp tail n).mem.bit (8 * cp + i) = addOn.mem.bit (8 * addOn.data + i) := by
  have hcopy := Mem.bits_storeAll (m := first.mem) cp (addOn.mem.octets addOn.data n)
  rw [Mem.length_octets, ← Mem.bits_octets, Mem.bits_eq_bits_iff] at hcopy
  exact hcopy i hi

theorem bit_mergedAt_of_lt {cp tail n q : Nat} (hq : q < 8 * cp) :
    (mergedAt first addOn cp tail n).mem.bit q = first.mem.bit q :=
  Mem.bit_storeAll_of_lt _ hq

theorem bit_shareByte {i : Nat} :
    (shareByte first addOn).mem.bit (8 * addOn.data + i) =
      (addOn.mem.bit (8 * addOn.data + i) ||
        (decide (i < 8) && first.mem.bit (8 * first.tail + i))) := by
  by_cases hi : i < 8
  · rw [shareByte, poke_mem, Mem.bit_store_self _ _ _ i hi, Nat.testBit_or,
      Mem.bit_of_byte _ _ i hi, Mem.bit_of_byte _ _ i hi]
    simp [hi, peek]
  · rw [shareByte, poke_mem, Mem.bit_store_of_ne _ _ (by omega)]
    simp [hi]

/-! ## When the contract holds -/

theorem length_abuf_bits (bp : Abuf) : bp.bits.length = bp.tailPos - bp.startPos := by
  simp [Abuf.bits]

/-- A merge that leaves the tail where it belongs, and the first string alone, keeps the contract
iff the bits behind that string are those of the add-on. -/
theorem mergeContract_iff_bits {addOn' : Abuf} {cp tail n : Nat}
    (heq : abufMerge first addOn =
      (abufByteLen (mergedAt first addOn' cp tail n), mergedAt first addOn' cp tail n, addOn'))
    (htbl : addOn'.tailBitsLeft = addOn.tailBitsLeft) (hm : Mergeable first addOn)
    (hpos : 8 * tail + (8 - addOn.tailBitsLeft) = first.tailPos + addOn.bits.length)
    (hkept : ∀ q, q < first.tailPos →
      (mergedAt first addOn' cp tail n).mem.bit q = first.mem.bit q) :
    MergeContract first addOn ↔ ∀ i < addOn.bits.length,
      (mergedAt first addOn' cp tail n).mem.bit (first.tailPos + i) =
        addOn.mem.bit (addOn.startPos + i) := by
  set first' := mergedAt first addOn' cp tail n with hfirst
  have htail : first'.tailPos = 8 * tail + (8 - addOn'.tailBitsLeft) := rfl
  have happ : Appended first first' (first'.mem.bits first.tailPos addOn.bits.length) := by
    refine ⟨⟨rfl, rfl, rfl, rfl, rfl⟩, ?_, hkept, ?_⟩
    · rw [Mem.length_bits, htail, htbl, hpos]
    · rw [Mem.length_bits]
  have hlen : abufBitsLen first' = first.bits.length + addOn.bits.length := by
    have hle := hm.fill.le
    have hle' : first'.tailBitsLeft ≤ 8 := htbl.trans_le hm.fillAddOn.le
    have hord := hm.order
    have hnew := happ.tailPos
    have hstart := happ.frame.startPos
    have hfirstlen := length_abuf_bits first
    rw [Mem.length_bits] at hnew
    simp only [abufBitsLen]
    simp only [startPos, tailPos] at hnew hfirstlen hord hstart
    omega
  have hbits : first'.bits = first.bits ++ first'.mem.bits first.tailPos addOn.bits.length :=
    happ.bits hm.order
  have hwindow : first'.mem.bits first.tailPos addOn.bits.length = addOn.bits ↔
      ∀ i < addOn.bits.length, first'.mem.bit (first.tailPos + i) =
        addOn.mem.bit (addOn.startPos + i) := by
    rw [length_abuf_bits, Abuf.bits, Mem.bits_eq_bits_iff]
  rw [← hwindow]
  unfold MergeContract
  rw [heq]
  simp only
  rw [hbits, List.append_cancel_left_eq, hlen]
  simp only [and_true]

/-- A merge that leaves the tail elsewhere breaks it. -/
theorem not_mergeContract_of_tailPos {addOn' : Abuf} {cp tail n : Nat}
    (heq : abufMerge first addOn =
      (abufByteLen (mergedAt first addOn' cp tail n), mergedAt first addOn' cp tail n, addOn'))
    (htbl : addOn'.tailBitsLeft = addOn.tailBitsLeft) (hm : Mergeable first addOn)
    (hpos : 8 * tail + (8 - addOn.tailBitsLeft) ≠ first.tailPos + addOn.bits.length) :
    ¬ MergeContract first addOn := by
  rintro ⟨-, hlen, -⟩
  have hfirstlen := length_abuf_bits first
  have hle := hm.fill.le
  have hle' := hm.fillAddOn.le
  have hord := hm.order
  rw [heq] at hlen
  simp only [abufBitsLen, mergedAt, memcpy, withTail_tail, withTail_tailBitsLeft, withTail_data,
    withTail_headHeadspaceBits, htbl] at hlen
  simp only [startPos, tailPos] at hpos hfirstlen hord
  omega

/-! ## The pairs of ends -/

/-- The bytes of the add-on, by its tail byte. -/
theorem abufByteLen_addOn (hm : Mergeable first addOn) :
    ∃ n : Nat, abufByteLen addOn = n ∧ addOn.data + n =
      addOn.tail + if addOn.tailBitsLeft = 8 then 0 else 1 := by
  have hle := hm.fillAddOn.le
  have hord := hm.orderAddOn
  simp only [startPos, tailPos] at hord
  refine ⟨(abufByteLen addOn).toNat, ?_, ?_⟩
  · unfold abufByteLen
    split_ifs <;> omega
  · unfold abufByteLen
    split_ifs <;> omega

/-- The merge of a shared byte, with the numbers it leaves. -/
theorem abufMerge_of_shared (hm : Mergeable first addOn)
    (h : addOn.headHeadspaceBits ≠ 0 ∨ first.tailBitsLeft ≠ 0) :
    ∃ n : Nat, addOn.data + n = (addOn.tail + if addOn.tailBitsLeft = 8 then 0 else 1) ∧
      abufMerge first addOn =
        (abufByteLen (mergedAt first (shareByte first addOn) first.tail (first.tail + n - 1) n),
          mergedAt first (shareByte first addOn) first.tail (first.tail + n - 1) n,
          shareByte first addOn) := by
  obtain ⟨n, hlen, hn⟩ := abufByteLen_addOn hm
  refine ⟨n, hn, abufMerge_shared h hlen hm.tail ?_⟩
  have hroom := hm.room
  have hord := hm.orderAddOn
  have hle := hm.fillAddOn.le
  have hle' := hm.fill.le
  have hspace := hm.headspace
  rw [length_abuf_bits] at hroom
  simp only [startPos, tailPos] at hroom hord
  split_ifs at hn <;> omega

/-- A started add-on behind a started or full byte: the shared byte keeps the bits of both. -/
theorem mergeContract_of_shared (hm : Mergeable first addOn) (hpos : 0 < addOn.headHeadspaceBits)
    (hmatch : addOn.headHeadspaceBits + first.tailBitsLeft = 8) (h8 : addOn.tailBitsLeft ≠ 8) :
    MergeContract first addOn := by
  obtain ⟨n, hn, heq⟩ := abufMerge_of_shared hm (.inl (by omega))
  rw [if_neg h8] at hn
  have hclean : first.mem.byte first.tail % 2 ^ first.tailBitsLeft = 0 :=
    hm.fill.clean (by omega)
  have hord := hm.orderAddOn
  have hle := hm.fillAddOn.le
  have hlen := length_abuf_bits addOn
  have hbit : ∀ i, i < 8 * n → (mergedAt first (shareByte first addOn) first.tail
      (first.tail + n - 1) n).mem.bit (8 * first.tail + i) =
        if i < addOn.headHeadspaceBits then first.mem.bit (8 * first.tail + i)
        else addOn.mem.bit (8 * addOn.data + i) :=
    fun i hi => merged_bit hi hm.headClean hclean hmatch
  simp only [startPos, tailPos] at hord hlen
  rw [mergeContract_iff_bits heq rfl hm]
  · intro i hi
    have hfront : first.tailPos + i = 8 * first.tail + (addOn.headHeadspaceBits + i) := by
      simp only [tailPos]
      omega
    rw [hfront, hbit _ (by omega), if_neg (by omega), startPos, Nat.add_assoc]
  · simp only [tailPos]
    omega
  · intro q hq
    by_cases hin : 8 * first.tail ≤ q
    · obtain ⟨i, rfl⟩ := Nat.exists_eq_add_of_le hin
      simp only [tailPos] at hq
      rw [hbit i (by omega), if_pos (by omega)]
    · exact bit_mergedAt_of_lt (by omega)

/-- An add-on without headspace on a fresh tail byte: the byte is or-ed in. -/
theorem mergeContract_iff_of_fresh (hm : Mergeable first addOn) (h0 : addOn.headHeadspaceBits = 0)
    (hfresh : first.tailBitsLeft = 8) (h8 : addOn.tailBitsLeft ≠ 8) :
    MergeContract first addOn ↔ ∀ i < 8, i < addOn.bits.length →
      first.mem.bit (8 * first.tail + i) = true → addOn.mem.bit (8 * addOn.data + i) = true := by
  obtain ⟨n, hn, heq⟩ := abufMerge_of_shared hm (.inr (by omega))
  rw [if_neg h8] at hn
  have hord := hm.orderAddOn
  have hle := hm.fillAddOn.le
  have hlen := length_abuf_bits addOn
  have htail := hm.tail
  have hfront : first.tailPos = 8 * first.tail := by simp only [tailPos]; omega
  have hstart : addOn.startPos = 8 * addOn.data := by simp only [startPos]; omega
  simp only [startPos, tailPos] at hord hlen
  rw [mergeContract_iff_bits heq rfl hm]
  · rw [hfront, hstart]
    constructor
    · intro h i hi hlt hbit
      have hone := h i hlt
      rw [bit_mergedAt (by omega), shareByte, poke_data, ← shareByte, bit_shareByte] at hone
      simpa [hi, hbit] using hone.symm
    · intro h i hlt
      rw [bit_mergedAt (by omega), shareByte, poke_data, ← shareByte, bit_shareByte]
      by_cases hi : i < 8
      · have himp := h i hi hlt
        cases hbit : first.mem.bit (8 * first.tail + i) with
        | false => simp
        | true => simp [himp hbit]
      · simp [hi]
  · simp only [tailPos]
    omega
  · intro q hq
    exact bit_mergedAt_of_lt (by omega)

/-- An add-on without headspace behind a full tail byte is copied. -/
theorem mergeContract_of_aligned (hm : Mergeable first addOn) (h0 : addOn.headHeadspaceBits = 0)
    (hfull : first.tailBitsLeft = 0) (h8 : addOn.tailBitsLeft ≠ 8) : MergeContract first addOn := by
  obtain ⟨n, hlen, hn⟩ := abufByteLen_addOn hm
  rw [if_neg h8] at hn
  have hord := hm.orderAddOn
  have hle := hm.fillAddOn.le
  have hroom := hm.room
  have hbits := length_abuf_bits addOn
  have hfront : first.tailPos = 8 * (first.tail + 1) := by simp only [tailPos]; omega
  have hstart : addOn.startPos = 8 * addOn.data := by simp only [startPos]; omega
  simp only [startPos, tailPos] at hord hbits hroom
  have heq := abufMerge_aligned h0 hfull hlen (by omega)
  rw [mergeContract_iff_bits heq rfl hm]
  · intro i hi
    rw [hfront, hstart, bit_mergedAt (by omega)]
  · rw [hfront]
    omega
  · intro q hq
    exact bit_mergedAt_of_lt (by omega)

/-- A fresh tail byte of the add-on costs an octet. -/
theorem not_mergeContract_of_fresh_addOn (hm : Mergeable first addOn)
    (h8 : addOn.tailBitsLeft = 8)
    (hends : ¬ (addOn.headHeadspaceBits = 8 ∧ first.tailBitsLeft = 8)) :
    ¬ MergeContract first addOn := by
  have hord := hm.orderAddOn
  have hle := hm.fill.le
  have hspace := hm.headspace
  have haligned := hm.aligned
  have htail := hm.tail
  have hroom := hm.room
  have hlen := length_abuf_bits addOn
  by_cases hshared : addOn.headHeadspaceBits ≠ 0 ∨ first.tailBitsLeft ≠ 0
  · obtain ⟨n, hn, heq⟩ := abufMerge_of_shared hm hshared
    rw [if_pos h8] at hn
    apply not_mergeContract_of_tailPos heq rfl hm
    simp only [startPos, tailPos] at hord hlen ⊢
    omega
  · obtain ⟨n, hn, hdata⟩ := abufByteLen_addOn hm
    rw [if_pos h8] at hdata
    simp only [startPos, tailPos] at hord hlen hroom
    apply not_mergeContract_of_tailPos
      (abufMerge_aligned (by omega) (by omega) hn (by omega)) rfl hm
    simp only [tailPos]
    omega

theorem byte_eq_iff {m m' : Mem} {a a' : Nat} :
    m.byte a = m'.byte a' ↔ ∀ i < 8, m.bit (8 * a + i) = m'.bit (8 * a' + i) := by
  rw [← Mem.bits_eq_bits_iff]
  constructor
  · intro h
    rw [Mem.bits_byte, Mem.bits_byte, h]
  · intro h
    rw [← Mem.field_byte, ← Mem.field_byte, Mem.field, Mem.field, h]

/-- Each octet is the one before it, from a first one on, iff all are that one. -/
theorem forall_succ_eq_iff {f : Nat → Nat} {d n : Nat} {g : Nat} :
    (∀ j < n, f (d + 1 + j) = if j = 0 then g else f (d + j)) ↔
      ∀ a, d < a → a < d + 1 + n → f a = g := by
  constructor
  · intro h a hlo hhi
    obtain ⟨j, rfl⟩ := Nat.exists_eq_add_of_le (show d + 1 ≤ a from hlo)
    induction j with
    | zero => simpa using h 0 (by omega)
    | succ j ih =>
      have hstep := h (j + 1) (by omega)
      rw [if_neg (by omega), show d + (j + 1) = d + 1 + j by omega] at hstep
      rw [hstep]
      exact ih (by omega) (by omega)
  · intro h j hj
    rw [h _ (by omega) (by omega)]
    split_ifs
    · rfl
    · exact (h _ (by omega) (by omega)).symm

/-- An add-on with an unused first byte on a fresh tail byte. -/
theorem mergeContract_iff_of_unused (hm : Mergeable first addOn)
    (h8 : addOn.headHeadspaceBits = 8) (hfresh : first.tailBitsLeft = 8) :
    MergeContract first addOn ↔ addOn.tailBitsLeft = 8 ∧
      ∀ a, addOn.data < a → a < addOn.tail → addOn.mem.byte a = first.mem.byte first.tail := by
  obtain ⟨n, hn, heq⟩ := abufMerge_of_shared hm (.inl (by omega))
  have hord := hm.orderAddOn
  have hle := hm.fillAddOn.le
  have hlen := length_abuf_bits addOn
  have htail := hm.tail
  have hfront : first.tailPos = 8 * first.tail := by simp only [tailPos]; omega
  have hstart : addOn.startPos = 8 * (addOn.data + 1) := by simp only [startPos]; omega
  simp only [startPos, tailPos] at hord hlen
  by_cases htbl : addOn.tailBitsLeft = 8
  · rw [if_pos htbl] at hn
    obtain ⟨k, rfl⟩ : ∃ k, n = k + 1 := ⟨n - 1, by omega⟩
    have hlen' : addOn.bits.length = 8 * k := by omega
    -- octet `j` of the copy is the one before octet `j` of the add-on's string
    have hcopy : ∀ j < k, (∀ i < 8, (mergedAt first (shareByte first addOn) first.tail
        (first.tail + (k + 1) - 1) (k + 1)).mem.bit (8 * (first.tail + j) + i) =
          addOn.mem.bit (8 * (addOn.data + 1 + j) + i)) ↔
        addOn.mem.byte (addOn.data + 1 + j) =
          if j = 0 then first.mem.byte first.tail else addOn.mem.byte (addOn.data + j) := by
      intro j hj
      have hread : ∀ i < 8, (mergedAt first (shareByte first addOn) first.tail
          (first.tail + (k + 1) - 1) (k + 1)).mem.bit (8 * (first.tail + j) + i) =
            if j = 0 then first.mem.bit (8 * first.tail + i)
            else addOn.mem.bit (8 * (addOn.data + j) + i) := by
        intro i hi
        rw [show 8 * (first.tail + j) + i = 8 * first.tail + (8 * j + i) by omega,
          bit_mergedAt (by omega), shareByte, poke_data, ← shareByte, bit_shareByte,
          show 8 * addOn.data + (8 * j + i) = 8 * (addOn.data + j) + i by omega]
        by_cases hj0 : j = 0
        · have hzero : addOn.mem.byte addOn.data = 0 := by
            have := hm.headClean
            rw [HeadClean, h8] at this
            omega
          subst hj0
          rw [Nat.add_zero, Mem.bit_of_byte _ _ _ hi, hzero]
          simp [hi]
        · simp [hj0, show ¬ 8 * j + i < 8 by omega]
      rw [eq_comm (a := addOn.mem.byte (addOn.data + 1 + j))]
      by_cases hj0 : j = 0
      · rw [if_pos hj0, byte_eq_iff]
        exact forall₂_congr fun i hi => by rw [hread i hi, if_pos hj0]
      · rw [if_neg hj0, byte_eq_iff]
        exact forall₂_congr fun i hi => by rw [hread i hi, if_neg hj0]
    rw [mergeContract_iff_bits heq rfl hm, hfront, hstart, hlen', and_iff_right htbl,
      show addOn.tail = addOn.data + 1 + k by omega, ← forall_succ_eq_iff]
    · constructor
      · intro h j hj
        refine (hcopy j hj).mp fun i hi => ?_
        have hbit := h (8 * j + i) (by omega)
        rwa [show 8 * first.tail + (8 * j + i) = 8 * (first.tail + j) + i by omega,
          show 8 * (addOn.data + 1) + (8 * j + i) = 8 * (addOn.data + 1 + j) + i by omega] at hbit
      · intro h i hi
        have hbit := (hcopy (i / 8) (by omega)).mpr (h (i / 8) (by omega)) (i % 8) (by omega)
        rwa [show 8 * (first.tail + i / 8) + i % 8 = 8 * first.tail + i by omega,
          show 8 * (addOn.data + 1 + i / 8) + i % 8 = 8 * (addOn.data + 1) + i by omega] at hbit
    · rw [hfront]
      omega
    · intro q hq
      exact bit_mergedAt_of_lt (by omega)
  · rw [if_neg htbl] at hn
    refine iff_of_false (not_mergeContract_of_tailPos heq rfl hm ?_) fun h => htbl h.1
    rw [hfront]
    omega

/-- A merge of abufs with matching ends keeps both strings iff none of the fresh bytes at their
ends is in the way. -/
theorem mergeContract_iff (first addOn : Abuf) (hm : Mergeable first addOn) :
    MergeContract first addOn ↔ KeepsBoth first addOn := by
  have hle := hm.fill.le
  have hspace := hm.headspace
  have haligned := hm.aligned
  unfold KeepsBoth
  by_cases hends : addOn.headHeadspaceBits = 8 ∧ first.tailBitsLeft = 8
  · rw [if_pos hends]
    exact mergeContract_iff_of_unused hm hends.1 hends.2
  rw [if_neg hends]
  by_cases h8 : addOn.tailBitsLeft = 8
  · exact iff_of_false (not_mergeContract_of_fresh_addOn hm h8 hends) fun h => h.1 h8
  rw [and_iff_right h8]
  by_cases hhead : addOn.headHeadspaceBits = 0
  · by_cases hfull : first.tailBitsLeft = 0
    · refine iff_of_true (mergeContract_of_aligned hm hhead hfull h8) ?_
      intro h
      omega
    · have hfresh : first.tailBitsLeft = 8 := by omega
      rw [mergeContract_iff_of_fresh hm hhead hfresh h8]
      exact ⟨fun h _ => h, fun h => h ⟨hhead, hfresh⟩⟩
  · refine iff_of_true (mergeContract_of_shared hm (by omega) (by omega) h8) ?_
    intro h
    exact absurd h.1 hhead

instance (bp : Abuf) : Decidable (HeadClean bp) := inferInstanceAs (Decidable (_ < _))

/-- Three bits of an add-on behind five bits of headspace. -/
def threeBitsBehindFive : Abuf where
  mem := fun a => if a = 8192 then 5 else 0
  head := 8192
  size := 32
  headHeadspaceBits := 5
  data := 8192
  tail := 8192
  tailBitsLeft := 0
  end_ := 8224
  written := []

/-- Five bits of a first abuf. -/
def fiveBits : Abuf where
  mem := fun a => if a = 4096 then 0xa8 else 0
  head := 4096
  size := 32
  headHeadspaceBits := 0
  data := 4096
  tail := 4096
  tailBitsLeft := 3
  end_ := 4128
  written := []

theorem mergeable_fiveBits : Mergeable fiveBits threeBitsBehindFive where
  fill := ⟨by decide, fun _ => by decide⟩
  fillAddOn := ⟨by decide, fun _ => by decide⟩
  order := by decide
  orderAddOn := by decide
  headspace := by decide
  headClean := by decide
  aligned := by decide
  tail := by decide
  room := by decide

theorem mergeContract_fiveBits : MergeContract fiveBits threeBitsBehindFive :=
  (mergeContract_iff fiveBits threeBitsBehindFive mergeable_fiveBits).mpr (by
    unfold KeepsBoth
    rw [if_neg (by decide)]
    exact ⟨by decide, fun h => absurd h.1 (by decide)⟩)

/-- The same three bits, as `asn_ncat_bits` leaves them: the tail on a fresh byte. -/
theorem mergeContract_fails_on_fresh_tail :
    Mergeable fiveBits (threeBitsBehindFive.withTail 8193 8) ∧
      (threeBitsBehindFive.withTail 8193 8).bits = threeBitsBehindFive.bits ∧
      ¬ MergeContract fiveBits (threeBitsBehindFive.withTail 8193 8) := by
  have hm : Mergeable fiveBits (threeBitsBehindFive.withTail 8193 8) := by
    refine ⟨mergeable_fiveBits.fill, fillable_of_empty rfl, ?_, ?_, ?_, ?_, ?_, ?_, ?_⟩ <;> decide
  exact ⟨hm, rfl, not_mergeContract_of_fresh_addOn hm rfl (by decide)⟩

end SatComm.Asnbuf
