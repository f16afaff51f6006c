import Mathlib

/-!
# Searching a sequence by a key

The lower bound of `a` splits a sequence into the part whose keys are below `a` and the rest.
Where the keys are strictly increasing, an element with the key `a` is the first of the rest.
-/

namespace Search

variable {α κ : Type*} [LinearOrder κ] (f : α → κ)

def below (a : κ) (l : List α) : List α := l.takeWhile fun x => f x < a

def above (a : κ) (l : List α) : List α := l.dropWhile fun x => f x < a

/-- Strictly increasing keys. -/
def Increasing (l : List α) : Prop := l.Pairwise fun x y => f x < f y

variable {f} {a : κ} {l : List α}

@[simp]
theorem below_append_above : below f a l ++ above f a l = l := List.takeWhile_append_dropWhile

theorem lt_of_mem_below {x : α} (h : x ∈ below f a l) : f x < a := by
  simpa using List.mem_takeWhile_imp h

theorem mem_of_mem_below {x : α} (h : x ∈ below f a l) : x ∈ l :=
  (List.takeWhile_prefix _).subset h

theorem mem_of_mem_above {x : α} (h : x ∈ above f a l) : x ∈ l :=
  (List.dropWhile_suffix _).subset h

theorem le_of_mem_above (hl : Increasing f l) {x : α} (h : x ∈ above f a l) : a ≤ f x := by
  induction l with
  | nil => cases h
  | cons y l ih =>
    obtain ⟨hy, hl⟩ := List.pairwise_cons.mp hl
    by_cases hlt : f y < a
    · rw [above, List.dropWhile_cons_of_pos (by simpa using hlt)] at h
      exact ih hl h
    · rw [above, List.dropWhile_cons_of_neg (by simpa using hlt)] at h
      rcases List.mem_cons.mp h with rfl | hmem
      · exact not_lt.mp hlt
      · exact (not_lt.mp hlt).trans (hy x hmem).le

theorem Increasing.above (hl : Increasing f l) (a : κ) : Increasing f (above f a l) :=
  List.Pairwise.sublist (List.dropWhile_sublist _) hl

/-- Either the rest starts with an element whose key is `a`, or all its keys are greater. -/
theorem above_cases (hl : Increasing f l) (a : κ) :
    (∃ x rest, above f a l = x :: rest ∧ f x = a ∧ ∀ y ∈ rest, a < f y) ∨
      ∀ y ∈ above f a l, a < f y := by
  have hle := fun x => le_of_mem_above (a := a) (x := x) hl
  have hup := hl.above a
  cases hrest : Search.above f a l with
  | nil => exact .inr fun y hy => nomatch hy
  | cons x rest =>
    rw [hrest] at hle hup
    obtain ⟨hx, -⟩ := List.pairwise_cons.mp hup
    rcases (hle x List.mem_cons_self).eq_or_lt with heq | hlt
    · exact .inl ⟨x, rest, rfl, heq.symm, fun y hy => heq ▸ hx y hy⟩
    · refine .inr fun y hy => ?_
      rcases List.mem_cons.mp hy with rfl | hy
      · exact hlt
      · exact hlt.trans (hx y hy)

/-- A sequence put together around the key `a`. -/
theorem increasing_append {mid : List α} {rest : List α} (hl : Increasing f l)
    (hmid : Increasing f mid) (hrest : Increasing f rest) (heq : ∀ x ∈ mid, f x = a)
    (hgt : ∀ y ∈ rest, a < f y) : Increasing f (below f a l ++ (mid ++ rest)) := by
  refine List.pairwise_append.mpr ⟨hl.sublist (List.takeWhile_sublist _), ?_, ?_⟩
  · refine List.pairwise_append.mpr ⟨hmid, hrest, fun x hx y hy => ?_⟩
    rw [heq x hx]
    exact hgt y hy
  · intro x hx y hy
    refine (lt_of_mem_below hx).trans_le ?_
    rcases List.mem_append.mp hy with hy | hy
    · exact (heq y hy).ge
    · exact (hgt y hy).le

/-- The elements with the key `a` are exchanged for at most one other with that key. -/
theorem increasing_exchange (hl : Increasing f l) (old : List α) {new rest : List α}
    (habove : above f a l = old ++ rest) (hrest : ∀ y ∈ rest, a < f y) (hnew : ∀ x ∈ new, f x = a)
    (hone : new.length ≤ 1) : Increasing f (below f a l ++ (new ++ rest)) := by
  have hrestInc : Increasing f rest := by
    have := hl.above a
    rw [habove] at this
    exact (List.pairwise_append.mp this).2.1
  have hnewInc : Increasing f new := by
    match new, hone with
    | [], _ => exact List.Pairwise.nil
    | [n], _ => exact List.pairwise_singleton _ n
  exact increasing_append hl hnewInc hrestInc hnew hrest

theorem mem_exchange (old new : List α) {rest : List α} (habove : above f a l = old ++ rest)
    (hold : ∀ x ∈ old, f x = a) (hrest : ∀ y ∈ rest, a < f y) (x : α) :
    x ∈ below f a l ++ (new ++ rest) ↔ (x ∈ l ∧ f x ≠ a) ∨ x ∈ new := by
  have hl : l = below f a l ++ (old ++ rest) := by rw [← habove, below_append_above]
  constructor
  · intro hx
    rcases List.mem_append.mp hx with hx | hx
    · exact .inl ⟨mem_of_mem_below hx, (lt_of_mem_below hx).ne⟩
    · rcases List.mem_append.mp hx with hx | hx
      · exact .inr hx
      · refine .inl ⟨?_, (hrest x hx).ne'⟩
        rw [hl]
        simp [hx]
  · rintro (⟨hx, hne⟩ | hx)
    · rw [hl] at hx
      rcases List.mem_append.mp hx with hx | hx
      · exact List.mem_append_left _ hx
      · rcases List.mem_append.mp hx with hx | hx
        · exact absurd (hold x hx) hne
        · simp [hx]
    · simp [hx]

end Search
