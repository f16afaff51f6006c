import Mathlib.Data.List.Basic
import Mathlib.Data.Nat.Find
import Mathlib.Logic.Relation
import Mathlib.Tactic.Common

/-!
# Segments of a text between delimiters

A text is cut at the delimiters, from its front on. What stands behind the last delimiter is a
segment unless it is empty. A cutter that takes one segment off the front is called until nothing
is left; that this comes to an end, and with all segments, depends on what the cutter does where
there is no delimiter any more.
-/

namespace Codes

variable {α : Type*} {delimiter front rest s : List α}

/-- Behind `front` is the first delimiter. -/
def First (delimiter front rest : List α) : Prop :=
  ∀ front' rest', front ++ delimiter ++ rest = front' ++ delimiter ++ rest' →
    front.length ≤ front'.length

theorem First.unique {front' rest' : List α} (h : First delimiter front rest)
    (h' : First delimiter front' rest')
    (heq : front ++ delimiter ++ rest = front' ++ delimiter ++ rest') :
    front = front' ∧ rest = rest' := by
  have hlength := Nat.le_antisymm (h _ _ heq) (h' _ _ heq.symm)
  have hfront := List.append_inj_left (by simpa using heq) hlength
  subst hfront
  exact ⟨rfl, List.append_cancel_left heq⟩

theorem first_singleton {c : α} (h : c ∉ front) (rest : List α) : First [c] front rest := by
  intro front' rest' heq
  by_contra hlt
  have hget := congrArg (·[front'.length]?) heq
  simp only [List.append_assoc, List.singleton_append] at hget
  rw [List.getElem?_append_left (Nat.lt_of_not_le hlt),
    List.getElem?_append_right (Nat.le_refl _), Nat.sub_self, List.getElem?_cons_zero] at hget
  exact h (List.mem_of_getElem? hget)

/-- The position of the first delimiter. -/
def find [BEq α] (s delimiter : List α) : Option Nat :=
  (s.dropInfix? delimiter).map (·.1.length)

section

variable [BEq α] [LawfulBEq α]

theorem dropInfix?_eq_some :
    s.dropInfix? delimiter = some (front, rest) ↔
      s = front ++ delimiter ++ rest ∧ First delimiter front rest := by
  rw [List.dropInfix?_eq_some_iff]
  constructor
  · rintro ⟨⟨infix', hs, heq⟩, hfirst⟩
    rw [beq_iff_eq] at heq
    subst heq
    refine ⟨hs, fun front' rest' hfront' => ?_⟩
    exact hfirst front' infix' rest' (hs.trans hfront') BEq.rfl
  · rintro ⟨hs, hfirst⟩
    refine ⟨⟨delimiter, hs, BEq.rfl⟩, fun front' infix' rest' hs' heq => ?_⟩
    rw [beq_iff_eq] at heq
    subst heq
    exact hfirst front' rest' (hs.symm.trans hs')

theorem find_append (h : First delimiter front rest) :
    find (front ++ delimiter ++ rest) delimiter = some front.length := by
  rw [find, dropInfix?_eq_some.mpr ⟨rfl, h⟩, Option.map_some]

theorem find_of_not_infix (h : ¬delimiter <:+: s) : find s delimiter = none := by
  cases hdrop : s.dropInfix? delimiter with
  | none => rw [find, hdrop, Option.map_none]
  | some p =>
    obtain ⟨rfl, -⟩ := dropInfix?_eq_some.mp hdrop
    exact absurd ⟨p.1, p.2, rfl⟩ h

end

/-- Whatever has a delimiter has a first one. -/
theorem exists_first (h : delimiter <:+: s) :
    ∃ front rest, s = front ++ delimiter ++ rest ∧ First delimiter front rest := by
  classical
  have hsome : ∃ n front rest, s = front ++ delimiter ++ rest ∧ front.length = n := by
    obtain ⟨front, rest, hs⟩ := h
    exact ⟨front.length, front, rest, hs.symm, rfl⟩
  obtain ⟨front, rest, hs, hn⟩ := Nat.find_spec hsome
  refine ⟨front, rest, hs, fun front' rest' heq => ?_⟩
  rw [hn]
  exact Nat.find_min' hsome ⟨front', rest', hs.trans heq, rfl⟩

/-! ## Segments -/

inductive Segments (delimiter : List α) : List α → List (List α) → Prop
  | nil : Segments delimiter [] []
  | last {s : List α} (hne : s ≠ []) (h : ¬delimiter <:+: s) : Segments delimiter s [s]
  | cons {front rest : List α} {segments : List (List α)} (hfirst : First delimiter front rest)
      (h : Segments delimiter rest segments) :
      Segments delimiter (front ++ delimiter ++ rest) (front :: segments)

/-- Nothing stands behind the last delimiter. -/
inductive Ended (delimiter : List α) : List α → Prop
  | nil : Ended delimiter []
  | cons {front rest : List α} (hfirst : First delimiter front rest) (h : Ended delimiter rest) :
      Ended delimiter (front ++ delimiter ++ rest)

theorem length_rest_lt (hdelimiter : delimiter ≠ []) (front rest : List α) :
    rest.length < (front ++ delimiter ++ rest).length := by
  have hpos := List.length_pos_iff.mpr hdelimiter
  simp only [List.length_append]
  omega

theorem ne_nil_of_delimiter (hdelimiter : delimiter ≠ []) (front rest : List α) :
    front ++ delimiter ++ rest ≠ [] :=
  List.ne_nil_of_length_pos (Nat.zero_lt_of_lt (length_rest_lt hdelimiter front rest))

theorem isInfix_append (front rest : List α) : delimiter <:+: front ++ delimiter ++ rest :=
  ⟨front, rest, rfl⟩

/-- A text is empty, or has no delimiter, or is cut at its first. The induction is on what is left
then. -/
theorem segmentsInduction {P : List α → Prop} (hdelimiter : delimiter ≠ []) (hnil : P [])
    (hlast : ∀ s, s ≠ [] → ¬delimiter <:+: s → P s)
    (hcons : ∀ front rest, First delimiter front rest → P rest →
      P (front ++ delimiter ++ rest)) (s : List α) : P s := by
  induction hlength : s.length using Nat.strong_induction_on generalizing s with
  | _ n ih =>
    by_cases hne : s = []
    · rw [hne]
      exact hnil
    by_cases hinfix : delimiter <:+: s
    · obtain ⟨front, rest, rfl, hfirst⟩ := exists_first hinfix
      apply hcons front rest hfirst
      exact ih rest.length (hlength ▸ length_rest_lt hdelimiter front rest) rest rfl
    · exact hlast s hne hinfix

theorem exists_segments (hdelimiter : delimiter ≠ []) (s : List α) :
    ∃ segments, Segments delimiter s segments := by
  apply segmentsInduction hdelimiter (P := fun s => ∃ segments, Segments delimiter s segments)
  · exact ⟨[], .nil⟩
  · exact fun s hne h => ⟨[s], .last hne h⟩
  · rintro front rest hfirst ⟨segments, h⟩
    exact ⟨front :: segments, .cons hfirst h⟩

theorem eq_nil_of_segments_nil (hdelimiter : delimiter ≠ []) {segments : List (List α)}
    (h : Segments delimiter [] segments) : segments = [] := by
  generalize hs : ([] : List α) = s at h
  cases h with
  | nil => rfl
  | last hne => exact absurd hs.symm hne
  | cons => exact absurd hs.symm (ne_nil_of_delimiter hdelimiter _ _)

theorem ended_append (hdelimiter : delimiter ≠ []) (hfirst : First delimiter front rest) :
    Ended delimiter (front ++ delimiter ++ rest) ↔ Ended delimiter rest := by
  refine ⟨fun h => ?_, .cons hfirst⟩
  generalize hs : front ++ delimiter ++ rest = s at h
  cases h with
  | nil => exact absurd hs (ne_nil_of_delimiter hdelimiter front rest)
  | cons hfirst' h' =>
    obtain ⟨-, rfl⟩ := hfirst.unique hfirst' hs
    exact h'

theorem not_ended_of_not_infix (hne : s ≠ []) (h : ¬delimiter <:+: s) : ¬Ended delimiter s := by
  intro hended
  cases hended with
  | nil => exact hne rfl
  | cons => exact h (isInfix_append _ _)

/-! ## Cutting one segment off after the other -/

variable {next : List α → List α × List α} {segments : List (List α)}

/-- The segments that are cut off before nothing is left, in so many calls. -/
def repeatedly (next : List α → List α × List α) : Nat → List α → Option (List (List α))
  | 0, _ => none
  | n + 1, s =>
    if s.isEmpty then some [] else (repeatedly next n (next s).2).map ((next s).1 :: ·)

/-- What is left after some calls. -/
def Left (next : List α → List α × List α) : List α → List α → Prop :=
  Relation.ReflTransGen fun s s' => s ≠ [] ∧ s' = (next s).2

/-- The calls come to an end with all segments, and each leaves less. -/
structure Tokenizes (next : List α → List α × List α) (delimiter s : List α) : Prop where
  segments : ∃ segments n, Segments delimiter s segments ∧ repeatedly next n s = some segments
  shorter : ∀ s', Left next s s' → s' ≠ [] → (next s').2.length < s'.length

/-- The next segment is cut off where there is a delimiter, in texts that are not too long. -/
def Cuts (next : List α → List α × List α) (delimiter : List α) (bound : Nat) : Prop :=
  ∀ front rest, (front ++ delimiter ++ rest).length < bound → First delimiter front rest →
    next (front ++ delimiter ++ rest) = (front, rest)

/-- Where there is no delimiter any more, all that is left is the segment. -/
def TakesAll (next : List α → List α × List α) (delimiter : List α) (bound : Nat) : Prop :=
  ∀ s, s.length < bound → s ≠ [] → ¬delimiter <:+: s → next s = (s, [])

/-- Where there is no delimiter any more, nothing is taken. -/
def TakesNothing (next : List α → List α × List α) (delimiter : List α) (bound : Nat) : Prop :=
  ∀ s, s.length < bound → s ≠ [] → ¬delimiter <:+: s → (next s).2 = s

variable {bound : Nat}

theorem repeatedly_nil (n : Nat) : repeatedly next (n + 1) [] = some [] := rfl

theorem repeatedly_of_ne_nil (n : Nat) (hne : s ≠ []) :
    repeatedly next (n + 1) s = (repeatedly next n (next s).2).map ((next s).1 :: ·) := by
  rw [repeatedly, if_neg (by simpa using hne)]

/-- What is left of a text with a property that calls keep has it. -/
theorem Left.invariant {P : List α → Prop} (hstep : ∀ s, s ≠ [] → P s → P (next s).2)
    {s s' : List α} (h : Left next s s') (hs : P s) : P s' := by
  induction h with
  | refl => exact hs
  | tail _ hcall ih =>
    obtain ⟨hne, rfl⟩ := hcall
    exact hstep _ hne ih

namespace Tokenizes

theorem nil : Tokenizes next delimiter [] := by
  refine ⟨⟨[], 1, .nil, rfl⟩, fun s' hleft hne => ?_⟩
  apply absurd _ hne
  exact hleft.invariant (P := fun s => s = []) (fun s hne hs => absurd hs hne) rfl

/-- A call that cuts off the next segment. -/
theorem cons (hdelimiter : delimiter ≠ []) (hfirst : First delimiter front rest)
    (hnext : next (front ++ delimiter ++ rest) = (front, rest))
    (h : Tokenizes next delimiter rest) :
    Tokenizes next delimiter (front ++ delimiter ++ rest) := by
  have hne := ne_nil_of_delimiter hdelimiter front rest
  constructor
  · obtain ⟨segments, n, hsegments, hrepeatedly⟩ := h.segments
    refine ⟨front :: segments, n + 1, .cons hfirst hsegments, ?_⟩
    rw [repeatedly_of_ne_nil n hne, hnext, hrepeatedly, Option.map_some]
  · intro s' hleft hne'
    rcases Relation.ReflTransGen.cases_head hleft with rfl | ⟨s'', ⟨-, rfl⟩, hleft⟩
    · rw [hnext]
      exact length_rest_lt hdelimiter front rest
    · rw [hnext] at hleft
      exact h.shorter s' hleft hne'

theorem last (hne : s ≠ []) (h : ¬delimiter <:+: s) (hnext : next s = (s, [])) :
    Tokenizes next delimiter s := by
  have hnil : Tokenizes next delimiter [] := nil
  constructor
  · refine ⟨[s], 2, .last hne h, ?_⟩
    rw [repeatedly_of_ne_nil 1 hne, hnext, repeatedly_nil, Option.map_some]
  · intro s' hleft hne'
    rcases Relation.ReflTransGen.cases_head hleft with rfl | ⟨s'', ⟨-, rfl⟩, hleft⟩
    · rw [hnext]
      exact List.length_pos_iff.mpr hne
    · rw [hnext] at hleft
      exact hnil.shorter s' hleft hne'

theorem of_takesAll (hdelimiter : delimiter ≠ []) (hcuts : Cuts next delimiter bound)
    (htakes : TakesAll next delimiter bound) (s : List α) (hs : s.length < bound) :
    Tokenizes next delimiter s := by
  revert hs
  apply segmentsInduction hdelimiter (P := fun s => s.length < bound → Tokenizes next delimiter s)
  · exact fun _ => nil
  · exact fun s hne h hs => last hne h (htakes s hs hne h)
  · intro front rest hfirst ih hs
    apply cons hdelimiter hfirst (hcuts front rest hs hfirst)
    exact ih (Nat.lt_trans (length_rest_lt hdelimiter front rest) hs)

theorem of_ended (hdelimiter : delimiter ≠ []) (hcuts : Cuts next delimiter bound)
    (hs : s.length < bound) (h : Ended delimiter s) : Tokenizes next delimiter s := by
  induction h with
  | nil => exact nil
  | @cons front rest hfirst _ ih =>
    apply cons hdelimiter hfirst (hcuts front rest hs hfirst)
    exact ih (Nat.lt_trans (length_rest_lt hdelimiter front rest) hs)

end Tokenizes

/-- With something behind the last delimiter that is not taken, the calls do not come to an end. -/
theorem repeatedly_eq_none (hdelimiter : delimiter ≠ []) (hcuts : Cuts next delimiter bound)
    (htakes : TakesNothing next delimiter bound) (n : Nat) (hs : s.length < bound)
    (h : ¬Ended delimiter s) : repeatedly next n s = none := by
  induction n generalizing s with
  | zero => rfl
  | succ n ih =>
    have hne : s ≠ [] := by
      rintro rfl
      exact h .nil
    rw [repeatedly_of_ne_nil n hne, Option.map_eq_none_iff]
    by_cases hinfix : delimiter <:+: s
    · obtain ⟨front, rest, rfl, hfirst⟩ := exists_first hinfix
      rw [hcuts front rest hs hfirst]
      apply ih (Nat.lt_trans (length_rest_lt hdelimiter front rest) hs)
      rwa [← ended_append hdelimiter hfirst]
    · rw [htakes s hs hne hinfix]
      exact ih hs h

theorem tokenizes_iff_of_takesNothing (hdelimiter : delimiter ≠ [])
    (hcuts : Cuts next delimiter bound) (htakes : TakesNothing next delimiter bound)
    (hs : s.length < bound) : Tokenizes next delimiter s ↔ Ended delimiter s := by
  refine ⟨fun h => ?_, .of_ended hdelimiter hcuts hs⟩
  by_contra hended
  obtain ⟨segments, n, -, hrepeatedly⟩ := h.segments
  rw [repeatedly_eq_none hdelimiter hcuts htakes n hs hended] at hrepeatedly
  cases hrepeatedly

end Codes
