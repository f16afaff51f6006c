import SatComm.Bits.Octets

/-!
# Writing bits one after the other

`Wrote m m' p bs` says that `m'` is the memory `m` with the bits `bs` from position `p` on. Writers
that go from left to right compose, and after them a memory that was clear holds what they wrote.
-/

namespace Bits.Mem

variable {m m' m₁ m₂ : Mem} {p : Nat} {bs cs : List Bool}

structure Wrote (m m' : Mem) (p : Nat) (bs : List Bool) : Prop where
  bits : m'.bits p bs.length = bs
  other : ∀ q, q < p ∨ p + bs.length ≤ q → m'.bit q = m.bit q

theorem wrote_nil (m : Mem) (p : Nat) : Wrote m m p [] := ⟨rfl, fun _ _ => rfl⟩

theorem Wrote.append (h : Wrote m m₁ p bs) (h' : Wrote m₁ m₂ (p + bs.length) cs) :
    Wrote m m₂ p (bs ++ cs) := by
  constructor
  · have hfirst : m₂.bits p bs.length = m₁.bits p bs.length :=
      bits_congr fun q _ hq => h'.other q (Or.inl hq)
    rw [List.length_append, bits_add, hfirst, h.bits, h'.bits]
  · intro q hq
    rw [List.length_append] at hq
    rw [h'.other q (by omega), h.other q (by omega)]

/-- A store that changes one bit of a byte. -/
theorem wrote_store {a i v : Nat} {b : Bool} (hi : i < 8)
    (hv : ∀ j < 8, v.testBit (7 - j) = if j = i then b else (m.byte a).testBit (7 - j)) :
    Wrote m (m.store a v) (8 * a + i) [b] := by
  constructor
  · have hbit : (m.store a v).bit (8 * a + i) = b := by
      rw [bit_store_self m a v i hi, hv i hi, if_pos rfl]
    simp [Mem.bits, hbit]
  · intro q hq
    rw [List.length_singleton] at hq
    by_cases ha : q / 8 = a
    · obtain ⟨j, hj, rfl⟩ : ∃ j, j < 8 ∧ q = 8 * a + j := ⟨q % 8, by omega, by omega⟩
      rw [bit_store_self m a v j hj, hv j hj, if_neg (by omega), bit_of_byte m a j hj]
    · exact bit_store_of_ne m v ha

/-- Behind what was written to a clear memory, the zeros are still there. -/
theorem Wrote.bits_of_clear (h : Wrote (fun _ => 0) m' 0 bs) (k : Nat) :
    m'.bits 0 (bs.length + k) = bs ++ List.replicate k false := by
  rw [bits_add, h.bits]
  congr 1
  apply List.ext_getElem
  · simp
  · intro i h₁ _
    have hi : i < k := by simpa using h₁
    have hclear : m'.bit (bs.length + i) = false := by
      rw [h.other _ (Or.inr (by omega))]
      simp [Mem.bit, Mem.byte]
    simpa [Mem.bits] using hclear

end Bits.Mem
