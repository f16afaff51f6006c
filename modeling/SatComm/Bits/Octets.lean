import SatComm.Bits.Basic

/-!
# Octet strings in a memory

A whole-byte message is easier to walk as a list of octets. `Mem.Holds m a os` says that the
octets `os` stand in the memory from address `a` on; it splits along appends, and it is the
statement about a bit window that the bit writers give.
-/

namespace Bits

/-- The bits of a list of octets. -/
def octetBits (os : List Nat) : List Bool := os.flatMap (toBits 8)

@[simp] theorem octetBits_nil : octetBits [] = [] := rfl

@[simp] theorem octetBits_cons (o : Nat) (os : List Nat) :
    octetBits (o :: os) = toBits 8 o ++ octetBits os := rfl

@[simp] theorem octetBits_append (os os' : List Nat) :
    octetBits (os ++ os') = octetBits os ++ octetBits os' := by
  simp [octetBits]

@[simp] theorem length_octetBits (os : List Nat) : (octetBits os).length = 8 * os.length := by
  induction os with
  | nil => rfl
  | cons o os ih =>
    rw [octetBits_cons, List.length_append, ih, length_toBits, List.length_cons]
    omega

namespace Mem

variable {m : Mem}

/-- The octets `os` stand in the memory from `a` on. -/
def Holds (m : Mem) : Nat → List Nat → Prop
  | _, [] => True
  | a, o :: os => m.byte a = o ∧ Holds m (a + 1) os

@[simp] theorem holds_nil (a : Nat) : m.Holds a [] := trivial

@[simp] theorem holds_cons {a o : Nat} {os : List Nat} :
    m.Holds a (o :: os) ↔ m.byte a = o ∧ m.Holds (a + 1) os := Iff.rfl

theorem holds_append {a : Nat} {os os' : List Nat} :
    m.Holds a (os ++ os') ↔ m.Holds a os ∧ m.Holds (a + os.length) os' := by
  induction os generalizing a with
  | nil => simp
  | cons o os ih =>
    rw [List.cons_append, holds_cons, holds_cons, ih, List.length_cons, and_assoc,
      show a + 1 + os.length = a + (os.length + 1) by omega]

theorem byte_eq_of_bits {a v : Nat} (h : m.bits (8 * a) 8 = toBits 8 v) : m.byte a = v % 256 := by
  have hfield := field_eq_of_bits m h
  rwa [field_byte] at hfield

/-- A window that reads as the bits of octets holds them. -/
theorem holds_of_bits {a : Nat} {os : List Nat} (hlt : ∀ o ∈ os, o < 256)
    (h : m.bits (8 * a) (8 * os.length) = octetBits os) : m.Holds a os := by
  induction os generalizing a with
  | nil => trivial
  | cons o os ih =>
    rw [List.length_cons, show 8 * (os.length + 1) = 8 + 8 * os.length by omega, bits_add,
      octetBits_cons] at h
    obtain ⟨hfst, hrest⟩ := List.append_inj h (by simp)
    refine ⟨?_, ih (fun o' ho' => hlt o' (by simp [ho'])) ?_⟩
    · rw [byte_eq_of_bits hfst]
      exact Nat.mod_eq_of_lt (hlt o (by simp))
    · rw [show 8 * (a + 1) = 8 * a + 8 by omega]
      exact hrest

/-- The `n` octets from `a` on. -/
def octets (m : Mem) (a n : Nat) : List Nat := (List.range n).map fun i => m.byte (a + i)

@[simp] theorem length_octets (a n : Nat) : (m.octets a n).length = n := by simp [octets]

theorem octets_succ (a n : Nat) : m.octets a (n + 1) = m.byte a :: m.octets (a + 1) n := by
  simp only [octets, List.range_succ_eq_map, List.map_cons, List.map_map, Nat.add_zero]
  congr 1
  apply List.map_congr_left
  intro i _
  simp only [Function.comp_apply, Nat.succ_eq_add_one]
  congr 1
  omega

theorem octets_lt {a n o : Nat} (h : o ∈ m.octets a n) : o < 256 := by
  simp only [octets, List.mem_map] at h
  obtain ⟨i, -, rfl⟩ := h
  exact m.byte_lt _

theorem holds_iff_octets {a : Nat} {os : List Nat} : m.Holds a os ↔ m.octets a os.length = os := by
  induction os generalizing a with
  | nil => simp [octets]
  | cons o os ih => rw [holds_cons, List.length_cons, octets_succ, List.cons.injEq, ih]

theorem bits_byte (a : Nat) : m.bits (8 * a) 8 = toBits 8 (m.byte a) := by
  rw [bits_eq_toBits_iff]
  intro i hi
  rw [bit_of_byte _ _ _ hi]

theorem bits_octets (a n : Nat) : m.bits (8 * a) (8 * n) = octetBits (m.octets a n) := by
  induction n generalizing a with
  | zero => rfl
  | succ n ih =>
    rw [show 8 * (n + 1) = 8 + 8 * n by omega, bits_add, bits_byte, octets_succ, octetBits_cons,
      show 8 * a + 8 = 8 * (a + 1) by omega, ih]

/-- Store a list of octets, one after the other. -/
def storeAll (m : Mem) : Nat → List Nat → Mem
  | _, [] => m
  | a, o :: os => storeAll (m.store a o) (a + 1) os

theorem bit_storeAll_of_lt {a p : Nat} (os : List Nat) (h : p < 8 * a) :
    (m.storeAll a os).bit p = m.bit p := by
  induction os generalizing m a with
  | nil => rfl
  | cons o os ih =>
    rw [storeAll, ih (by omega)]
    exact bit_store_of_ne m o (by omega)

theorem bits_storeAll (a : Nat) (os : List Nat) :
    (m.storeAll a os).bits (8 * a) (8 * os.length) = octetBits os := by
  induction os generalizing m a with
  | nil => rfl
  | cons o os ih =>
    rw [storeAll, List.length_cons, show 8 * (os.length + 1) = 8 + 8 * os.length by omega,
      bits_add, octetBits_cons, show 8 * a + 8 = 8 * (a + 1) by omega, ih]
    congr 1
    rw [bits_eq_toBits_iff]
    intro i hi
    rw [bit_storeAll_of_lt os (by omega), bit_store_self m a o i hi]

end Mem

end Bits
