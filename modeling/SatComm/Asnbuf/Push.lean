import SatComm.Asnbuf.Ncat
import SatComm.Bits.Octets

/-!
# Writing in front: `asn_push_bits` and the merge of a header

A message is closed by writing in front of it: its length, then the bits of whatever comes
before. `asn_push_bits` works from the least significant bit on, first into the unused bits of
the first byte, then into whole bytes towards `head`.

`asnPushBits_spec` is the one statement about a push with headroom. The end of the message and
every bit of it stay.
-/

namespace SatComm.Asnbuf

open Bits Abuf

/-! ## The code -/

/-- The data pointer and the unused bits of its byte. -/
def Abuf.withHead (bp : Abuf) (data headHeadspaceBits : Nat) : Abuf :=
  { bp with data := data, headHeadspaceBits := headHeadspaceBits }

/-- The first byte: `q` bits of `data` go below the free bits that are left. -/
def pushFirst (bp : Abuf) (data q : Nat) : Abuf :=
  let shift := 8 - bp.headHeadspaceBits
  let kept := bp.peek bp.data &&& (0xff ^^^ ((1 <<< q - 1) <<< shift))
  bp.poke bp.data (kept ||| (data &&& (1 <<< q - 1)) <<< shift)

/-- The loop over whole bytes. -/
def pushBytes : Nat → Nat → Abuf → Abuf
  | 0, _, bp => bp
  | k + 1, data, bp =>
    pushBytes k (data >>> 8) ((bp.poke bp.data (data &&& 0xff)).withHead (bp.data - 1) 8)

/-- The first byte and the step to the byte before it, once it is full. -/
def pushInto (bp : Abuf) (data q : Nat) : Abuf :=
  let hs := bp.headHeadspaceBits - q
  let bp := pushFirst bp data q
  if hs < 1 then bp.withHead (bp.data - 1) 8 else bp.withHead bp.data hs

/-- The other bytes: whole ones, then the last seven or fewer bits. -/
def pushRest (bp : Abuf) (data rest : Nat) : Abuf :=
  let bp := pushBytes (rest / 8) data bp
  let r := rest % 8
  if r ≠ 0 then
    (bp.poke bp.data (data >>> (8 * (rest / 8)) &&& (1 <<< r - 1))).withHead bp.data (8 - r)
  else bp

/-- An unused first byte is given back. -/
def trimHead (bp : Abuf) : Abuf :=
  if bp.headHeadspaceBits = 8 then bp.withHead (bp.data + 1) 0 else bp

/-- `asn_push_bits`: the result and the abuf afterwards. -/
def asnPushBits (bp : Abuf) (data bitsToAdd : Nat) : Int × Abuf :=
  if bitsToAdd ≠ 0 ∧ (bitsToAdd : Int) ≤ abufHeadroomBits bp then
    let q := if bitsToAdd < bp.headHeadspaceBits then bitsToAdd else bp.headHeadspaceBits
    (bitsToAdd, trimHead (pushRest (pushInto bp data q) (data >>> q) (bitsToAdd - q)))
  else (-1, bp)

/-- The loop of `abuf_merge_second`: the `k` bytes before address `p` go in front, the last one
first. -/
def pushBack (m : Mem) (p : Nat) : Nat → Abuf → Abuf
  | 0, bp => bp
  | k + 1, bp => pushBack m (p - 1) k (asnPushBits bp (m.byte (p - 1)) 8).2

/-- `abuf_merge_second`: everything of the first abuf goes in front of the second. -/
def abufMergeSecond (first combined : Abuf) : Abuf :=
  pushBack first.mem (first.tail + 1) (first.tail + 1 - first.data) combined

/-! ## What a push does -/

/-- `bp'` is `bp` with the bit string `bs` put in front. -/
structure Pushed (bp bp' : Abuf) (bs : List Bool) : Prop where
  head : bp'.head = bp.head
  size : bp'.size = bp.size
  end_ : bp'.end_ = bp.end_
  tail : bp'.tail = bp.tail
  tailBitsLeft : bp'.tailBitsLeft = bp.tailBitsLeft
  startPos : bp'.startPos + bs.length = bp.startPos
  kept : ∀ q, bp.startPos ≤ q → bp'.mem.bit q = bp.mem.bit q
  new : bp'.mem.bits bp'.startPos bs.length = bs

theorem Pushed.refl (bp : Abuf) : Pushed bp bp [] :=
  ⟨rfl, rfl, rfl, rfl, rfl, rfl, fun _ _ => rfl, rfl⟩

theorem Pushed.trans {a b c : Abuf} {xs ys : List Bool} (h : Pushed a b xs)
    (h' : Pushed b c ys) : Pushed a c (ys ++ xs) where
  head := h'.head.trans h.head
  size := h'.size.trans h.size
  end_ := h'.end_.trans h.end_
  tail := h'.tail.trans h.tail
  tailBitsLeft := h'.tailBitsLeft.trans h.tailBitsLeft
  startPos := by
    have h₁ := h.startPos
    have h₂ := h'.startPos
    rw [List.length_append]
    omega
  kept q hq := by
    have h₁ := h.startPos
    rw [h'.kept q (by omega), h.kept q hq]
  new := by
    rw [List.length_append, Mem.bits_add, h'.new, h'.startPos]
    congr 1
    refine Eq.trans (Mem.bits_congr fun q hq _ => ?_) h.new
    exact h'.kept q hq

/-- A change of the pointer that keeps the position. -/
theorem pushed_withHead {bp : Abuf} {d h : Nat}
    (hpos : 8 * d + h = bp.startPos) : Pushed bp (bp.withHead d h) [] :=
  ⟨rfl, rfl, rfl, rfl, rfl, by simpa [Abuf.startPos, Abuf.withHead] using hpos, fun _ _ => rfl, rfl⟩

/-- Replacing the `q` bits before bit `h` of a byte. -/
theorem overwrite_spec (m : Mem) {a h q x : Nat} (hq : q ≤ h) (hh : h ≤ 8) :
    let m' := m.store a ((m.byte a &&& (0xff ^^^ ((1 <<< q - 1) <<< (8 - h)))) |||
      (x &&& (1 <<< q - 1)) <<< (8 - h))
    (∀ p, 8 * a + h ≤ p ∨ p < 8 * a + (h - q) → m'.bit p = m.bit p) ∧
      m'.bits (8 * a + (h - q)) q = toBits q x := by
  intro m'
  have hbit : ∀ i, i < 8 → m'.bit (8 * a + i) =
      if h - q ≤ i ∧ i < h then x.testBit (h - 1 - i) else m.bit (8 * a + i) := by
    intro i hi
    have hff : (0xff : Nat) = 2 ^ 8 - 1 := rfl
    rw [Mem.bit_store_self m a _ i hi, Mem.bit_of_byte m a i hi, Nat.one_shiftLeft, hff]
    simp only [Nat.testBit_or, Nat.testBit_and, Nat.testBit_xor, Nat.testBit_shiftLeft,
      Nat.testBit_two_pow_sub_one]
    by_cases hin : h - q ≤ i ∧ i < h
    · have h₁ : 8 - h ≤ 7 - i := by omega
      have h₂ : 7 - i - (8 - h) < q := by omega
      have h₃ : 7 - i - (8 - h) = h - 1 - i := by omega
      have h₄ : 7 - i < 8 := by omega
      have h₅ : h - 1 - i < q := by omega
      rw [if_pos hin]
      simp [h₁, h₃, h₄, h₅]
    · have h₄ : 7 - i < 8 := by omega
      rw [if_neg hin]
      by_cases h₁ : 8 - h ≤ 7 - i
      · have h₂ : ¬ 7 - i - (8 - h) < q := by omega
        simp [h₂, h₄]
      · simp [h₁, h₄]
  refine ⟨?_, ?_⟩
  · intro p hp
    by_cases ha : p / 8 = a
    · obtain ⟨i, hi, rfl⟩ : ∃ i, i < 8 ∧ p = 8 * a + i := ⟨p % 8, by omega, by omega⟩
      rw [hbit i hi, if_neg (by omega)]
    · exact Mem.bit_store_of_ne m _ ha
  · rw [Mem.bits_eq_toBits_iff]
    intro i hi
    rw [Nat.add_assoc, hbit _ (by omega), if_pos (by omega)]
    congr 1
    omega

/-- The first byte of a push. -/
theorem pushFirst_spec {bp : Abuf} {data q d h : Nat} (hq : q ≤ bp.headHeadspaceBits)
    (hh : bp.headHeadspaceBits ≤ 8) (hpos : 8 * d + h + q = bp.startPos) :
    Pushed bp ((pushFirst bp data q).withHead d h) (toBits q data) := by
  obtain ⟨hkept, hnew⟩ := overwrite_spec bp.mem (a := bp.data) (x := data) hq hh
  refine ⟨rfl, rfl, rfl, rfl, rfl, ?_, ?_, ?_⟩
  · rw [length_toBits]
    exact hpos
  · intro p hp
    exact hkept p (.inl hp)
  · have hstart : ((pushFirst bp data q).withHead d h).startPos =
        8 * bp.data + (bp.headHeadspaceBits - q) := by
      change 8 * d + h = _
      rw [Abuf.startPos] at hpos
      omega
    rw [length_toBits, hstart]
    exact hnew

/-- A whole byte in front. -/
theorem pushed_byte (bp : Abuf) {v a d h : Nat} (hpos : bp.startPos = 8 * a + 8)
    (hpos' : 8 * d + h = 8 * a) : Pushed bp ((bp.poke a v).withHead d h) (toBits 8 v) := by
  refine ⟨rfl, rfl, rfl, rfl, rfl, ?_, ?_, ?_⟩
  · rw [length_toBits, hpos]
    change 8 * d + h + 8 = _
    omega
  · intro p hp
    exact Mem.bit_store_of_ne _ _ (by omega)
  · have hstart : ((bp.poke a v).withHead d h).startPos = 8 * a := hpos'
    rw [length_toBits, hstart, Mem.bits_eq_toBits_iff]
    intro i hi
    exact Mem.bit_store_self _ _ _ _ hi

/-- Fewer than eight bits in front, in a byte of their own. -/
theorem pushed_part (bp : Abuf) {v a r : Nat} (hr : r ≤ 8) (hpos : bp.startPos = 8 * a + 8) :
    Pushed bp ((bp.poke a (v &&& (1 <<< r - 1))).withHead a (8 - r)) (toBits r v) := by
  refine ⟨rfl, rfl, rfl, rfl, rfl, ?_, ?_, ?_⟩
  · rw [length_toBits, hpos]
    change 8 * a + (8 - r) + r = _
    omega
  · intro p hp
    exact Mem.bit_store_of_ne _ _ (by omega)
  · change (bp.mem.store a (v &&& (1 <<< r - 1))).bits (8 * a + (8 - r)) (toBits r v).length = _
    rw [length_toBits, Mem.bits_eq_toBits_iff]
    intro i hi
    rw [Nat.add_assoc, Mem.bit_store_self _ _ _ _ (by omega), Nat.one_shiftLeft, Nat.testBit_and,
      Nat.testBit_two_pow_sub_one]
    have h₁ : 7 - (8 - r + i) = r - 1 - i := by omega
    have h₂ : r - 1 - i < r := by omega
    simp [h₁, h₂]

theorem toBits_and_ff (v : Nat) : toBits 8 (v &&& 0xff) = toBits 8 v := by
  have hff : (0xff : Nat) = 2 ^ 8 - 1 := rfl
  rw [hff, Nat.and_two_pow_sub_one_eq_mod, toBits_mod]

theorem pushBytes_spec (k data : Nat) (bp : Abuf) (h8 : bp.headHeadspaceBits = 8)
    (hroom : k ≤ bp.data) :
    Pushed bp (pushBytes k data bp) (toBits (8 * k) data) ∧
      (pushBytes k data bp).headHeadspaceBits = 8 ∧
      (pushBytes k data bp).data = bp.data - k := by
  induction k generalizing data bp with
  | zero => exact ⟨.refl bp, h8, rfl⟩
  | succ k ih =>
    rw [pushBytes]
    have hfirst := pushed_byte bp (v := data &&& 0xff) (a := bp.data) (d := bp.data - 1) (h := 8)
      (by rw [Abuf.startPos, h8]) (by omega)
    rw [toBits_and_ff] at hfirst
    obtain ⟨hrest, hh, hd⟩ := ih (data >>> 8)
      ((bp.poke bp.data (data &&& 0xff)).withHead (bp.data - 1) 8) rfl
      (by change k ≤ bp.data - 1; omega)
    refine ⟨?_, hh, ?_⟩
    · rw [show 8 * (k + 1) = 8 * k + 8 by omega, toBits_add]
      exact hfirst.trans hrest
    · rw [hd]
      change bp.data - 1 - k = _
      omega

theorem pushInto_spec {bp : Abuf} (data : Nat) {q : Nat} (hq : q ≤ bp.headHeadspaceBits)
    (hh : bp.headHeadspaceBits ≤ 8) (hroom : q = bp.headHeadspaceBits → 0 < bp.data) :
    Pushed bp (pushInto bp data q) (toBits q data) ∧
      (pushInto bp data q).headHeadspaceBits =
        (if q = bp.headHeadspaceBits then 8 else bp.headHeadspaceBits - q) ∧
      bp.data ≤ (pushInto bp data q).data + 1 := by
  have hstart : bp.startPos = 8 * bp.data + bp.headHeadspaceBits := rfl
  unfold pushInto
  by_cases hfull : q = bp.headHeadspaceBits
  · have hd := hroom hfull
    simp only [hfull, Nat.sub_self, Nat.zero_lt_one, if_true]
    refine ⟨pushFirst_spec le_rfl hh ?_, rfl, ?_⟩
    · change 8 * (bp.data - 1) + 8 + bp.headHeadspaceBits = _
      omega
    · change bp.data ≤ bp.data - 1 + 1
      omega
  · simp only
    rw [if_neg (by omega), if_neg hfull]
    refine ⟨pushFirst_spec hq hh ?_, rfl, Nat.le_succ _⟩
    change 8 * bp.data + (bp.headHeadspaceBits - q) + q = _
    omega

theorem pushRest_spec {bp : Abuf} (data rest : Nat) (h8 : bp.headHeadspaceBits = 8)
    (hroom : rest / 8 ≤ bp.data) :
    Pushed bp (pushRest bp data rest) (toBits rest data) ∧
      (pushRest bp data rest).headHeadspaceBits ≤ 8 := by
  obtain ⟨hloop, hh, hd⟩ := pushBytes_spec (rest / 8) data bp h8 hroom
  unfold pushRest
  by_cases hr : rest % 8 = 0
  · have hrest : rest = 8 * (rest / 8) := by omega
    simp only [hr]
    rw [if_neg (by simp)]
    rw [← hrest] at hloop
    exact ⟨hloop, hh.le⟩
  · have hrest : rest = rest % 8 + 8 * (rest / 8) := by omega
    have hpart := pushed_part (pushBytes (rest / 8) data bp) (v := data >>> (8 * (rest / 8)))
      (a := (pushBytes (rest / 8) data bp).data) (show rest % 8 ≤ 8 by omega)
      (by rw [Abuf.startPos, hh])
    simp only
    rw [if_pos hr]
    refine ⟨?_, Nat.sub_le 8 _⟩
    have happ := hloop.trans hpart
    rw [← toBits_add, ← hrest] at happ
    exact happ

theorem trimHead_spec (bp : Abuf) (hh : bp.headHeadspaceBits ≤ 8) :
    Pushed bp (trimHead bp) [] ∧ (trimHead bp).headHeadspaceBits < 8 := by
  unfold trimHead
  split
  · rename_i h8
    exact ⟨pushed_withHead (by rw [Abuf.startPos, h8]; omega), by simp [Abuf.withHead]⟩
  · exact ⟨.refl bp, by omega⟩

/-- A push with headroom. -/
theorem asnPushBits_spec {bp : Abuf} (data : Nat) {n : Nat} (hn : 0 < n)
    (hh : bp.headHeadspaceBits ≤ 8) (hhead : 0 < bp.head) (hroom : 8 * bp.head + n ≤ bp.startPos) :
    Pushed bp (asnPushBits bp data n).2 (toBits n data) ∧
      (asnPushBits bp data n).2.headHeadspaceBits < 8 := by
  have hstart : bp.startPos = 8 * bp.data + bp.headHeadspaceBits := rfl
  have hcond : n ≠ 0 ∧ (n : Int) ≤ abufHeadroomBits bp := by
    refine ⟨by omega, ?_⟩
    simp only [abufHeadroomBits]
    omega
  rw [asnPushBits, if_pos hcond]
  by_cases hlt : n < bp.headHeadspaceBits
  -- everything fits below the bits that stay free
  · obtain ⟨hinto, hh', -⟩ := pushInto_spec data hlt.le hh (fun h => absurd h hlt.ne)
    simp only [if_pos hlt, Nat.sub_self]
    rw [if_neg hlt.ne] at hh'
    have hrest : pushRest (pushInto bp data n) (data >>> n) 0 = pushInto bp data n := rfl
    rw [hrest]
    obtain ⟨htrim, hlt8⟩ := trimHead_spec (pushInto bp data n) (by omega)
    exact ⟨hinto.trans htrim, hlt8⟩
  · obtain ⟨hinto, hh', hd⟩ := pushInto_spec data le_rfl hh (fun _ => by omega)
    rw [if_pos rfl] at hh'
    simp only [if_neg hlt]
    set q := bp.headHeadspaceBits with hq
    obtain ⟨hrest, hh''⟩ := pushRest_spec (data >>> q) (n - q) hh' (by omega)
    obtain ⟨htrim, hlt8⟩ := trimHead_spec _ hh''
    have happ := (hinto.trans hrest).trans htrim
    rw [← toBits_add, show n - q + q = n by omega, List.nil_append] at happ
    exact ⟨happ, hlt8⟩

/-- The bytes before `p`, all of them pushed. -/
theorem pushBack_spec (m : Mem) (p k : Nat) (bp : Abuf) (hk : k ≤ p)
    (hh : bp.headHeadspaceBits < 8) (hhead : 0 < bp.head)
    (hroom : 8 * bp.head + 8 * k ≤ bp.startPos) :
    Pushed bp (pushBack m p k bp) (octetBits (m.octets (p - k) k)) ∧
      (pushBack m p k bp).headHeadspaceBits < 8 := by
  induction k generalizing p bp with
  | zero => exact ⟨.refl bp, hh⟩
  | succ k ih =>
    rw [pushBack]
    obtain ⟨hfirst, hh'⟩ := asnPushBits_spec (m.byte (p - 1)) (n := 8) (by omega) hh.le hhead
      (by omega)
    set bp₁ := (asnPushBits bp (m.byte (p - 1)) 8).2 with hbp₁
    have hstart := hfirst.startPos
    rw [length_toBits] at hstart
    obtain ⟨hrest, hh''⟩ := ih (p - 1) bp₁ (by omega) hh' (hfirst.head.symm ▸ hhead)
      (by rw [hfirst.head]; omega)
    refine ⟨?_, hh''⟩
    have hsplit : octetBits (m.octets (p - (k + 1)) (k + 1)) =
        octetBits (m.octets (p - 1 - k) k) ++ toBits 8 (m.byte (p - 1)) := by
      rw [← Mem.bits_octets, ← Mem.bits_octets, show 8 * (k + 1) = 8 * k + 8 by omega,
        Mem.bits_add, ← Mem.bits_byte]
      congr 2
      · omega
      · omega
    rw [hsplit]
    exact hfirst.trans hrest

/-- A whole-byte header goes in front. -/
theorem abufMergeSecond_spec (first combined : Abuf) (hord : first.data ≤ first.tail + 1)
    (hh : combined.headHeadspaceBits < 8) (hhead : 0 < combined.head)
    (hroom : 8 * combined.head + 8 * (first.tail + 1 - first.data) ≤ combined.startPos) :
    Pushed combined (abufMergeSecond first combined)
        (octetBits (first.mem.octets first.data (first.tail + 1 - first.data))) ∧
      (abufMergeSecond first combined).headHeadspaceBits < 8 := by
  have h := pushBack_spec first.mem (first.tail + 1) (first.tail + 1 - first.data)
    combined (by omega) hh hhead hroom
  rwa [show first.tail + 1 - (first.tail + 1 - first.data) = first.data by omega] at h

end SatComm.Asnbuf
