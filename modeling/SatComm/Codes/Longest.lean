import Mathlib.Data.List.Basic
import Mathlib.Tactic.Common

/-!
# The longest sequence of words

The words of a code are written one after the other. When the front of a text tells the word that is
there, one of the sequences of words that a text begins with is the longest one: the one behind
which there is no word.
-/

namespace Codes

variable {σ α : Type*} {encode : σ → List α}

/-- A word is there to be seen in what it is the front of. -/
structure Delimited (encode : σ → List α) : Prop where
  ne_nil : ∀ s, encode s ≠ []
  unique : ∀ {s s' x y}, encode s ++ x = encode s' ++ y → s = s'

/-- The text begins with a word. -/
def Begins (encode : σ → List α) (p : List α) : Prop := ∃ s rest, p = encode s ++ rest

/-- The longest sequence of words that the text begins with. -/
structure Longest (encode : σ → List α) (p : List α) (l : List σ) : Prop where
  starts : l.flatMap encode <+: p
  longest : ∀ l' : List σ, l'.flatMap encode <+: p → l'.length ≤ l.length

namespace Delimited

/-- Words can be taken off until there is none. -/
theorem exists_split (h : Delimited encode) (p : List α) :
    ∃ (l : List σ) (rest : List α), p = l.flatMap encode ++ rest ∧ ¬ Begins encode rest := by
  induction hlength : p.length using Nat.strongRecOn generalizing p with
  | _ n ih =>
    by_cases hbegins : Begins encode p
    · obtain ⟨s, p', rfl⟩ := hbegins
      have hshorter : p'.length < n := by
        have hpos := List.length_pos_iff.mpr (h.ne_nil s)
        rw [List.length_append] at hlength
        omega
      obtain ⟨l, rest, hp', hrest⟩ := ih p'.length hshorter p' rfl
      refine ⟨s :: l, rest, ?_, hrest⟩
      rw [List.flatMap_cons, List.append_assoc, ← hp']
    · exact ⟨[], p, rfl, hbegins⟩

/-- Every other sequence is a part of these. -/
theorem prefix_of_split (h : Delimited encode) {l l' : List σ} {rest : List α}
    (hrest : ¬ Begins encode rest) (hl' : l'.flatMap encode <+: l.flatMap encode ++ rest) :
    l' <+: l := by
  induction l' generalizing l with
  | nil => exact List.nil_prefix
  | cons s' l' ih =>
    obtain ⟨behind, hbehind⟩ := hl'
    rw [List.flatMap_cons, List.append_assoc] at hbehind
    cases l with
    | nil => exact absurd ⟨s', _, hbehind.symm⟩ hrest
    | cons s l =>
      rw [List.flatMap_cons, List.append_assoc] at hbehind
      obtain rfl := h.unique hbehind
      have htail := List.append_cancel_left hbehind
      exact List.cons_prefix_cons.mpr ⟨rfl, ih ⟨behind, htail⟩⟩

theorem longest_of_split (h : Delimited encode) {l : List σ} {rest : List α}
    (hrest : ¬ Begins encode rest) : Longest encode (l.flatMap encode ++ rest) l where
  starts := List.prefix_append _ _
  longest _ hl' := (h.prefix_of_split hrest hl').length_le

/-- There is one such sequence. -/
theorem longest_unique (h : Delimited encode) {p : List α} {l l' : List σ}
    (hl : Longest encode p l) (hl' : Longest encode p l') : l = l' := by
  obtain ⟨split, rest, rfl, hrest⟩ := h.exists_split p
  have hsplit (m : List σ) (hm : Longest encode (split.flatMap encode ++ rest) m) : m = split :=
    (h.prefix_of_split hrest hm.starts).eq_of_length_le
      (hm.longest split (List.prefix_append _ _))
  rw [hsplit l hl, hsplit l' hl']

end Delimited

end Codes
