import Mathlib.Data.List.Forall2
import Mathlib.Tactic.Common

/-!
# Words side by side

Words that are written one after the other without anything between them are told apart by their
lengths. The digits of a number are such a word.
-/

namespace Codes

variable {σ α : Type*}

/-- Words of the same lengths are determined by the text. -/
theorem map_eq_of_flatMap_eq {f : σ → List α} {l l' : List σ}
    (hlength : List.Forall₂ (fun s t => (f s).length = (f t).length) l l')
    (h : l.flatMap f = l'.flatMap f) : l.map f = l'.map f := by
  induction hlength with
  | nil => rfl
  | cons hst hlength ih =>
    rw [List.flatMap_cons, List.flatMap_cons] at h
    obtain ⟨hword, hrest⟩ := List.append_inj h hst
    rw [List.map_cons, List.map_cons, hword, ih hrest]

/-- A number has its digits to itself, when the characters of the digits differ. -/
theorem toDigits_injective {b : ℕ} (hb : 1 < b)
    (hdigit : ∀ x < b, ∀ y < b, x.digitChar = y.digitChar → x = y) :
    Function.Injective (Nat.toDigits b) := by
  have hmod (n : ℕ) : n % b < b := Nat.mod_lt n (by omega)
  intro n
  induction n using Nat.strongRecOn with
  | _ n ih =>
    intro m h
    rw [Nat.toDigits_eq_if hb, Nat.toDigits_eq_if hb (n := m)] at h
    split_ifs at h with hn hm hm
    · exact hdigit n hn m hm (List.singleton_injective h)
    · have hlength := congrArg List.length h
      have hpos := Nat.length_toDigits_pos (b := b) (n := m / b)
      simp only [List.length_append, List.length_singleton] at hlength
      omega
    · have hlength := congrArg List.length h
      have hpos := Nat.length_toDigits_pos (b := b) (n := n / b)
      simp only [List.length_append, List.length_singleton] at hlength
      omega
    · obtain ⟨hdiv, hlast⟩ := List.append_inj' h rfl
      have hquotient := ih (n / b) (Nat.div_lt_self (by omega) hb) hdiv
      have hremainder := hdigit _ (hmod n) _ (hmod m) (List.singleton_injective hlast)
      rw [← Nat.div_add_mod n b, hquotient, hremainder, Nat.div_add_mod]

end Codes
