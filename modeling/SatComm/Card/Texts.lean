import SatComm.Card.Access
import SatComm.Codes.Juxtaposed

/-!
# The texts of a record

A record is stored as two texts. The decimal one has a space behind each byte and is read back. The
hexadecimal one has one digit for a byte below 16 and two for another one with nothing between them,
so that it tells the bytes apart only together with their numbers of digits.
-/

namespace SatComm

namespace Card

namespace Files

open Tel (convertStringToVector)

theorem convertStringToVector_convertVectorToString (d : List UInt8) :
    convertStringToVector (convertVectorToString d false) = d.map fun b => (b.toNat : Int) :=
  convertStringToVector_write Entry.null d

/-! ## Hexadecimal texts -/

/-- The bytes have the same number of hexadecimal digits. -/
def SameDigits (a b : UInt8) : Prop := a < 16 ↔ b < 16

theorem length_hex (b : UInt8) :
    (Nat.toDigits 16 b.toNat).length = if b < 16 then 1 else 2 := by
  have hpos := Nat.length_toDigits_pos (b := 16) (n := b.toNat)
  have hone : (Nat.toDigits 16 b.toNat).length ≤ 1 ↔ b.toNat < 16 :=
    Nat.length_toDigits_le_iff (by decide) (by decide)
  have htwo : (Nat.toDigits 16 b.toNat).length ≤ 2 :=
    (Nat.length_toDigits_le_iff (by decide) (by decide)).mpr b.toNat_lt
  have hb : b < 16 ↔ b.toNat < 16 := UInt8.lt_iff_toNat_lt
  split_ifs with h
  · have := hone.mpr (hb.mp h)
    omega
  · have := mt hone.mp (mt hb.mpr h)
    omega

theorem hex_injective : Function.Injective fun b : UInt8 => Nat.toDigits 16 b.toNat := by
  intro a b h
  apply UInt8.toNat_inj.mp
  exact Codes.toDigits_injective (by decide) (by decide) h

/-- Two lists of bytes are the same when their texts and the numbers of digits are. -/
theorem eq_iff_hex (d e : List UInt8) :
    d = e ↔ convertVectorToString d true = convertVectorToString e true ∧
      List.Forall₂ SameDigits d e := by
  constructor
  · rintro rfl
    exact ⟨rfl, List.forall₂_same.mpr fun _ _ => Iff.rfl⟩
  · rintro ⟨htext, hdigits⟩
    have hlength : List.Forall₂ (fun a b : UInt8 =>
        (Nat.toDigits 16 a.toNat).length = (Nat.toDigits 16 b.toNat).length) d e := by
      refine hdigits.imp fun a b hab => ?_
      rw [length_hex, length_hex]
      exact if_congr hab rfl rfl
    exact List.map_injective_iff.mpr hex_injective (Codes.map_eq_of_flatMap_eq hlength htext)

/-- The decimal text is read back, and the hexadecimal one identifies bytes with given numbers of
digits. -/
theorem texts_identify (d e : List UInt8) :
    convertStringToVector (convertVectorToString d false) = d.map (fun b => (b.toNat : Int)) ∧
      (d = e ↔ convertVectorToString d true = convertVectorToString e true ∧
        List.Forall₂ SameDigits d e) :=
  ⟨convertStringToVector_convertVectorToString d, eq_iff_hex d e⟩

/-- Two bytes with three digits can be split in two ways. -/
theorem hex_ambiguous : ¬ ∀ d e : List UInt8, d.length = e.length →
    convertVectorToString d true = convertVectorToString e true → d = e := by
  intro h
  exact absurd (h [1, 35] [18, 3] rfl (by decide)) (by decide)

end Files

end Card

end SatComm
