import Mathlib

/-!
# Bit strings over byte memories

A byte memory read most significant bit first is a bit string: bit `p` is bit
`7 - p % 8` of byte `p / 8`. This module fixes that reading (`Mem.bit`, `Mem.bits`), the
big-endian bits of a number (`toBits`) and the number held by a window of a memory
(`Mem.field`), and proves how windows split at a bit boundary and how each single byte is
seen by a window that ends, starts or lies inside it.
-/

namespace Bits

/-! ## Numbers as bit strings -/

/-- The `w` low bits of `v`, most significant bit first. -/
def toBits (w v : Nat) : List Bool := (List.range w).map fun i => v.testBit (w - 1 - i)

/-- The number a bit string stands for, most significant bit first. -/
def ofBits (bs : List Bool) : Nat := bs.foldl (fun n b => 2 * n + b.toNat) 0

@[simp] theorem length_toBits (w v : Nat) : (toBits w v).length = w := by simp [toBits]

theorem getElem_toBits {w v i : Nat} (h : i < (toBits w v).length) :
    (toBits w v)[i] = v.testBit (w - 1 - i) := by simp [toBits]

theorem toBits_eq_of_testBit {w u v : Nat} (h : ∀ i, i < w → u.testBit i = v.testBit i) :
    toBits w u = toBits w v := by
  apply List.map_congr_left
  intro i hi
  have hi' : i < w := List.mem_range.mp hi
  exact h _ (by omega)

theorem toBits_mod (w v : Nat) : toBits w (v % 2 ^ w) = toBits w v := by
  apply toBits_eq_of_testBit
  intro i hi
  simp [hi]

/-- Splitting a field: the high `a` bits, then the low `b` bits. -/
theorem toBits_add (a b v : Nat) : toBits (a + b) v = toBits a (v >>> b) ++ toBits b v := by
  apply List.ext_getElem
  · simp
  · intro i h₁ h₂
    rw [getElem_toBits, List.getElem_append]
    split
    · rename_i hi
      rw [length_toBits] at hi
      rw [getElem_toBits, Nat.testBit_shiftRight]
      congr 1
      omega
    · rename_i hi
      rw [length_toBits] at hi
      rw [getElem_toBits, length_toBits]
      congr 1
      omega

theorem ofBits_append_singleton (bs : List Bool) (b : Bool) :
    ofBits (bs ++ [b]) = 2 * ofBits bs + b.toNat := by
  simp [ofBits]

theorem ofBits_toBits (w v : Nat) : ofBits (toBits w v) = v % 2 ^ w := by
  induction w generalizing v with
  | zero => simp [toBits, ofBits, Nat.mod_one]
  | succ w ih =>
    have hlast : toBits 1 v = [v.testBit 0] := by simp [toBits]
    rw [toBits_add w 1 v, hlast, ofBits_append_singleton, ih, Nat.shiftRight_eq_div_pow,
      Nat.pow_one, Nat.testBit_zero, Nat.pow_succ', Nat.mod_mul]
    rcases Nat.mod_two_eq_zero_or_one v with h | h
    · simp [h]
    · simp [h]
      omega

theorem toBits_ofBits (bs : List Bool) : toBits bs.length (ofBits bs) = bs := by
  induction bs using List.reverseRecOn with
  | nil => rfl
  | append_singleton bs b ih =>
    have hhigh : ofBits (bs ++ [b]) >>> 1 = ofBits bs := by
      rw [ofBits_append_singleton, Nat.shiftRight_eq_div_pow, Nat.pow_one]
      cases b
      · simp
      · simp
        omega
    have hlow : toBits 1 (ofBits (bs ++ [b])) = [b] := by
      rw [ofBits_append_singleton]
      cases b <;> simp [toBits, Nat.testBit_zero]
    rw [List.length_append, List.length_singleton, toBits_add, hhigh, hlow, ih]

theorem toBits_injective {w u v : Nat} (h : toBits w u = toBits w v) :
    u % 2 ^ w = v % 2 ^ w := by
  rw [← ofBits_toBits, h, ofBits_toBits]

/-! ## Memories -/

/-- A byte memory, indexed by addresses. -/
abbrev Mem := Nat → UInt8

namespace Mem

variable (m : Mem)

/-- The byte at an address, as a number. -/
def byte (a : Nat) : Nat := (m a).toNat

theorem byte_lt (a : Nat) : m.byte a < 256 := (m a).toNat_lt

/-- Bit `p` of the memory, counted from the most significant bit of byte `0`. -/
def bit (p : Nat) : Bool := (m.byte (p / 8)).testBit (7 - p % 8)

/-- The `n` bits from position `p` on. -/
def bits (p n : Nat) : List Bool := (List.range n).map fun i => m.bit (p + i)

/-- The number held by the `n` bits from position `p` on. -/
def field (p n : Nat) : Nat := ofBits (m.bits p n)

@[simp] theorem length_bits (p n : Nat) : (m.bits p n).length = n := by simp [bits]

@[simp] theorem bits_zero (p : Nat) : m.bits p 0 = [] := rfl

theorem bits_add (p a b : Nat) : m.bits p (a + b) = m.bits p a ++ m.bits (p + a) b := by
  simp only [bits, List.range_add, List.map_append, List.map_map]
  congr 1
  apply List.map_congr_left
  intro i _
  simp [Nat.add_assoc]

theorem bits_succ (p n : Nat) : m.bits p (n + 1) = m.bits p n ++ [m.bit (p + n)] := by
  rw [bits_add]
  simp [bits]

theorem bits_congr {m m' : Mem} {p n : Nat} (h : ∀ q, p ≤ q → q < p + n → m.bit q = m'.bit q) :
    m.bits p n = m'.bits p n := by
  apply List.map_congr_left
  intro i hi
  have hi' : i < n := List.mem_range.mp hi
  exact h _ (by omega) (by omega)

theorem bits_eq_bits_iff {m m' : Mem} {p p' n : Nat} :
    m.bits p n = m'.bits p' n ↔ ∀ i, i < n → m.bit (p + i) = m'.bit (p' + i) := by
  simp [bits, List.map_inj_left]

theorem bits_eq_toBits_iff {p w v : Nat} :
    m.bits p w = toBits w v ↔ ∀ i, i < w → m.bit (p + i) = v.testBit (w - 1 - i) := by
  constructor
  · intro h i hi
    have := List.getElem_of_eq h (i := i) (by simpa using hi)
    simpa [bits, toBits] using this
  · intro h
    apply List.map_congr_left
    intro i hi
    exact h i (List.mem_range.mp hi)

theorem field_eq_of_bits {p w v : Nat} (h : m.bits p w = toBits w v) :
    m.field p w = v % 2 ^ w := by
  rw [field, h, ofBits_toBits]

@[simp] theorem field_zero (p : Nat) : m.field p 0 = 0 := rfl

theorem field_succ (p n : Nat) : m.field p (n + 1) = 2 * m.field p n + (m.bit (p + n)).toNat := by
  rw [field, bits_succ, ofBits_append_singleton, field]

theorem field_lt (p n : Nat) : m.field p n < 2 ^ n := by
  induction n with
  | zero => simp
  | succ n ih =>
    rw [field_succ, Nat.pow_succ]
    have := Bool.toNat_le (m.bit (p + n))
    omega

/-- A window split at a bit boundary: the first `a` bits are the high digits. -/
theorem field_add (p a b : Nat) :
    m.field p (a + b) = m.field p a <<< b ||| m.field (p + a) b := by
  rw [← Nat.shiftLeft_add_eq_or_of_lt (m.field_lt _ _), Nat.shiftLeft_eq]
  induction b with
  | zero => simp
  | succ b ih =>
    rw [← Nat.add_assoc, field_succ, ih, field_succ, Nat.pow_succ, Nat.add_assoc p a b]
    ring

/-! ## One byte seen through a window -/

theorem bit_of_byte (a i : Nat) (h : i < 8) : m.bit (8 * a + i) = (m.byte a).testBit (7 - i) := by
  have h₁ : (8 * a + i) / 8 = a := by omega
  have h₂ : (8 * a + i) % 8 = i := by omega
  rw [bit, h₁, h₂]

/-- A window inside byte `a` that leaves `l` bits before its end and takes `n` of them. -/
theorem field_inside {a l n : Nat} (hl : l ≤ 8) (hn : n ≤ l) :
    m.field (8 * a + (8 - l)) n = m.byte a >>> (l - n) % 2 ^ n := by
  rw [field_eq_of_bits]
  rw [bits_eq_toBits_iff]
  intro i hi
  rw [Nat.add_assoc, bit_of_byte _ _ _ (by omega), Nat.testBit_shiftRight]
  congr 1
  omega

/-- The last `l` bits of byte `a`. -/
theorem field_tail {a l : Nat} (hl : l ≤ 8) :
    m.field (8 * a + (8 - l)) l = m.byte a % 2 ^ l := by
  rw [field_inside m hl le_rfl, Nat.sub_self, Nat.shiftRight_zero]

/-- The first `n` bits of byte `a`. -/
theorem field_head {a n : Nat} (hn : n ≤ 8) : m.field (8 * a) n = m.byte a >>> (8 - n) := by
  have h := field_inside m (a := a) (l := 8) (n := n) le_rfl hn
  rw [Nat.sub_self, Nat.add_zero] at h
  rw [h, Nat.mod_eq_of_lt]
  rw [Nat.shiftRight_eq_div_pow, Nat.div_lt_iff_lt_mul (by positivity), ← Nat.pow_add]
  have := m.byte_lt a
  have he : n + (8 - n) = 8 := by omega
  rw [he]
  exact this

/-- All of byte `a`. -/
theorem field_byte (a : Nat) : m.field (8 * a) 8 = m.byte a := by
  rw [field_head m le_rfl, Nat.sub_self, Nat.shiftRight_zero]

/-! ## Stores -/

/-- Store the low eight bits of `v` at address `a`. -/
def store (a v : Nat) : Mem := Function.update m a (UInt8.ofNat v)

@[simp] theorem byte_store_self (a v : Nat) : (m.store a v).byte a = v % 256 := by
  simp [store, byte]

theorem byte_store_of_ne {a b : Nat} (v : Nat) (h : b ≠ a) :
    (m.store a v).byte b = m.byte b := by
  simp [store, byte, h]

theorem bit_store_of_ne {a p : Nat} (v : Nat) (h : p / 8 ≠ a) :
    (m.store a v).bit p = m.bit p := by
  rw [bit, bit, byte_store_of_ne m v h]

theorem bit_store_self (a v i : Nat) (h : i < 8) :
    (m.store a v).bit (8 * a + i) = v.testBit (7 - i) := by
  rw [bit_of_byte _ _ _ h, byte_store_self]
  have : (256 : Nat) = 2 ^ 8 := rfl
  rw [this, Nat.testBit_mod_two_pow]
  simp
  omega

@[simp] theorem store_store (a u v : Nat) : (m.store a u).store a v = m.store a v := by
  simp [store]

/-- Filling `n` of the `l` clear low bits of a byte from the left: the bits before stay, the
next `n` are the new ones, and the bits after them stay clear. -/
theorem fill_spec {a l n x : Nat} (hl : l ≤ 8) (hn : n ≤ l) (hz : m.byte a % 2 ^ l = 0)
    (hx : x < 2 ^ n) :
    let m' := m.store a (m.byte a ||| x <<< (l - n))
    (∀ q, q < 8 * a + (8 - l) → m'.bit q = m.bit q) ∧
      m'.bits (8 * a + (8 - l)) n = toBits n x ∧ m'.byte a % 2 ^ (l - n) = 0 := by
  intro m'
  have hclear : ∀ i, i < l → (m.byte a).testBit i = false := by
    intro i hi
    have := Nat.testBit_mod_two_pow (m.byte a) l i
    simpa [hz, hi] using this.symm
  have hhigh : ∀ i, n ≤ i → x.testBit i = false := fun i hi =>
    Nat.testBit_lt_two_pow (hx.trans_le (Nat.pow_le_pow_right (by omega) hi))
  refine ⟨?_, ?_, ?_⟩
  · intro q hq
    by_cases ha : q / 8 = a
    · obtain ⟨i, hi, rfl⟩ : ∃ i, i < 8 ∧ q = 8 * a + i := ⟨q % 8, by omega, by omega⟩
      rw [bit_store_self m a _ i hi, bit_of_byte m a i hi, Nat.testBit_or,
        Nat.testBit_shiftLeft, hhigh _ (by omega)]
      simp
    · exact bit_store_of_ne m _ ha
  · rw [bits_eq_toBits_iff]
    intro i hi
    rw [Nat.add_assoc, bit_store_self m a _ _ (by omega), Nat.testBit_or,
      hclear _ (by omega), Nat.testBit_shiftLeft, Bool.false_or]
    have hge : l - n ≤ 7 - (8 - l + i) := by omega
    have hidx : 7 - (8 - l + i) - (l - n) = n - 1 - i := by omega
    simp [hge, hidx]
  · apply Nat.eq_of_testBit_eq
    intro i
    rw [Nat.testBit_mod_two_pow, Nat.zero_testBit]
    by_cases hi : i < l - n
    · have h256 : (256 : Nat) = 2 ^ 8 := rfl
      rw [byte_store_self, h256, Nat.testBit_mod_two_pow, Nat.testBit_or, hclear i (by omega),
        Nat.testBit_shiftLeft]
      simp only [ge_iff_le, Bool.false_or, Bool.and_eq_false_imp, decide_eq_true_eq]
      omega
    · simp [hi]

end Mem

end Bits
