import Mathlib

/-!
# Writing through a lookup

A list is searched from the front for a key, and what is found is changed. Several elements may
have a key; `Stacked` says that all but the first of them are still new, so that an element that
is no longer new is the one its key finds. A loop over the positions of the list may change the
list on its way; `foldl_positions` is its induction rule.
-/

namespace Lookup

variable {α κ : Type*} (key : α → κ)

/-- Only the first element with a key is other than new. -/
def Stacked (New : α → Prop) (l : List α) : Prop := l.Pairwise fun a b => key b = key a → New b

section Stacked

variable {key} {New : α → Prop} {l r : List α} {a : α}

theorem Stacked.sublist (h : Stacked key New l) (hsub : r.Sublist l) : Stacked key New r :=
  List.Pairwise.sublist hsub h

theorem Stacked.concat (h : Stacked key New l) (ha : New a) : Stacked key New (l ++ [a]) := by
  refine List.pairwise_append.mpr ⟨h, List.pairwise_singleton _ _, fun b _ c hc _ => ?_⟩
  exact List.mem_singleton.mp hc ▸ ha

theorem Stacked.ne_of_append (h : Stacked key New (l ++ a :: r)) (ha : ¬ New a) :
    ∀ b ∈ l, key b ≠ key a := by
  intro b hb hkey
  exact ha ((List.pairwise_append.mp h).2.2 b hb a List.mem_cons_self hkey.symm)

end Stacked

variable [DecidableEq κ]

/-- Change the first element with a key. -/
def setFirst (k : κ) (f : α → α) : List α → List α
  | [] => []
  | a :: l => if key a = k then f a :: l else a :: setFirst k f l

/-- The first element with a key. -/
def first (k : κ) (l : List α) : Option α := l.find? fun a => key a = k

variable {key} {k : κ} {f : α → α} {New : α → Prop} {l r : List α} {a b : α}

theorem setFirst_cons :
    setFirst key k f (a :: l) = if key a = k then f a :: l else a :: setFirst key k f l := rfl

theorem first_eq_some (h : first key k l = some a) : a ∈ l ∧ key a = k :=
  ⟨List.mem_of_find?_eq_some h, by simpa using List.find?_some h⟩

theorem first_eq_none : first key k l = none ↔ ∀ a ∈ l, key a ≠ k := by
  simp [first, List.find?_eq_none]

theorem exists_first (h : a ∈ l) (hkey : key a = k) : ∃ b, first key k l = some b := by
  by_contra hnone
  push Not at hnone
  exact first_eq_none.mp (Option.eq_none_iff_forall_ne_some.mpr hnone) a h hkey

theorem first_append (h : ∀ b ∈ l, key b ≠ key a) : first key (key a) (l ++ a :: r) = some a := by
  have hnone : first key (key a) l = none := first_eq_none.mpr h
  rw [first, List.find?_append, show l.find? _ = none from hnone]
  simp

theorem setFirst_append (h : ∀ b ∈ l, key b ≠ key a) :
    setFirst key (key a) f (l ++ a :: r) = l ++ f a :: r := by
  induction l with
  | nil => exact if_pos rfl
  | cons b l ih =>
    obtain ⟨hb, hl⟩ := List.forall_mem_cons.mp h
    rw [List.cons_append, setFirst_cons, if_neg hb, ih hl, List.cons_append]

theorem mem_setFirst (h : b ∈ setFirst key k f l) : b ∈ l ∨ ∃ a ∈ l, key a = k ∧ b = f a := by
  induction l with
  | nil => exact absurd h List.not_mem_nil
  | cons a l ih =>
    rw [setFirst_cons] at h
    split_ifs at h with hkey
    · rcases List.mem_cons.mp h with rfl | hmem
      · exact .inr ⟨a, List.mem_cons_self, hkey, rfl⟩
      · exact .inl (List.mem_cons_of_mem _ hmem)
    · rcases List.mem_cons.mp h with rfl | hmem
      · exact .inl List.mem_cons_self
      · rcases ih hmem with hold | ⟨c, hc, hck, rfl⟩
        · exact .inl (List.mem_cons_of_mem _ hold)
        · exact .inr ⟨c, List.mem_cons_of_mem _ hc, hck, rfl⟩

theorem mem_setFirst_of_ne (h : a ∈ l) (hkey : key a ≠ k) : a ∈ setFirst key k f l := by
  induction l with
  | nil => exact absurd h List.not_mem_nil
  | cons b l ih =>
    rw [setFirst_cons]
    rcases List.mem_cons.mp h with rfl | hmem
    · rw [if_neg hkey]
      exact List.mem_cons_self
    · split_ifs
      · exact List.mem_cons_of_mem _ hmem
      · exact List.mem_cons_of_mem _ (ih hmem)

theorem mem_setFirst_of_first (h : first key k l = some a) : f a ∈ setFirst key k f l := by
  induction l with
  | nil => cases h
  | cons b l ih =>
    rw [setFirst_cons]
    rw [first, List.find?_cons] at h
    split_ifs with hkey
    · rw [decide_eq_true hkey] at h
      cases h
      exact List.mem_cons_self
    · rw [decide_eq_false hkey] at h
      exact List.mem_cons_of_mem _ (ih h)

@[simp]
theorem length_setFirst (k : κ) (f : α → α) (l : List α) :
    (setFirst key k f l).length = l.length := by
  induction l with
  | nil => rfl
  | cons a l ih =>
    rw [setFirst_cons]
    split_ifs
    · rfl
    · simp [ih]

theorem setFirst_of_none (h : first key k l = none) : setFirst key k f l = l := by
  rw [first_eq_none] at h
  induction l with
  | nil => rfl
  | cons a l ih =>
    obtain ⟨ha, hl⟩ := List.forall_mem_cons.mp h
    rw [setFirst_cons, if_neg ha, ih hl]

/-- Elements that keep their keys in a map are found where they were. -/
theorem setFirst_map [DecidableEq α] (hnodup : l.Nodup) (t : α → α) (ht : ∀ a, key (t a) = key a) :
    setFirst key k f (l.map t) =
      l.map fun a => if first key k l = some a then f (t a) else t a := by
  induction l with
  | nil => rfl
  | cons a l ih =>
    obtain ⟨ha, hl⟩ := List.nodup_cons.mp hnodup
    by_cases hkey : key a = k
    · have hfirst : first key k (a :: l) = some a := by simp [first, hkey]
      rw [List.map_cons, setFirst_cons, if_pos ((ht a).trans hkey), List.map_cons, hfirst,
        if_pos rfl]
      congr 1
      refine List.map_congr_left fun b hb => ?_
      have hne : a ≠ b := fun h => ha (h ▸ hb)
      rw [if_neg fun h => hne (Option.some.inj h)]
    · have hfirst : first key k (a :: l) = first key k l := by simp [first, hkey]
      have hne : first key k l ≠ some a := fun h => ha (first_eq_some h).1
      rw [List.map_cons, setFirst_cons, if_neg (fun h => hkey ((ht a).symm.trans h)), ih hl,
        List.map_cons, hfirst, if_neg hne]

/-- A write to the first element with a key leaves the others new. -/
theorem Stacked.setFirst (h : Stacked key New l) (hf : ∀ a, key (f a) = key a) :
    Stacked key New (setFirst key k f l) := by
  induction l with
  | nil => exact h
  | cons a l ih =>
    obtain ⟨ha, hl⟩ := List.pairwise_cons.mp h
    rw [setFirst_cons]
    split_ifs with hkey
    · refine List.pairwise_cons.mpr ⟨fun b hb hba => ?_, hl⟩
      exact ha b hb (hba.trans (hf a))
    · refine List.pairwise_cons.mpr ⟨fun b hb hba => ?_, ih hl⟩
      rcases mem_setFirst hb with hold | ⟨c, -, hck, rfl⟩
      · exact ha b hold hba
      · exact absurd (hba.symm.trans ((hf c).trans hck)) hkey

/-- An element that is not new is the one that its key finds. -/
theorem Stacked.first_eq (h : Stacked key New l) (hmem : a ∈ l) (ha : ¬ New a) :
    first key (key a) l = some a := by
  obtain ⟨s, t, rfl⟩ := List.append_of_mem hmem
  exact first_append (h.ne_of_append ha)

theorem Stacked.eq_of_key (h : Stacked key New l) (hmem : a ∈ l) (ha : ¬ New a) (hmem' : b ∈ l)
    (hb : ¬ New b) (hkey : key a = key b) : a = b := by
  have hfirst := h.first_eq hmem ha
  rw [hkey, h.first_eq hmem' hb] at hfirst
  exact (Option.some.inj hfirst).symm

/-- Induction along a loop over the positions of `l`. -/
theorem foldl_positions {σ : Type*} {P : List α → σ → Prop} (g : σ → Nat → σ) (l : List α) {s : σ}
    (hstart : P [] s)
    (hstep : ∀ before a after s, l = before ++ a :: after → P before s →
      P (before ++ [a]) (g s before.length)) :
    P l ((List.range l.length).foldl g s) := by
  have hstarts : ∀ n ≤ l.length, P (l.take n) ((List.range n).foldl g s) := by
    intro n hn
    induction n with
    | zero => exact hstart
    | succ n ih =>
      have hlt : n < l.length := hn
      have hsplit : l = l.take n ++ l[n] :: l.drop (n + 1) := by
        rw [← List.drop_eq_getElem_cons hlt, List.take_append_drop]
      have hlast := hstep _ _ _ _ hsplit (ih (Nat.le_of_succ_le hn))
      rw [List.length_take_of_le (Nat.le_of_succ_le hn)] at hlast
      rw [List.range_succ, List.foldl_append, List.take_succ_eq_append_getElem hlt]
      exact hlast
  simpa using hstarts l.length le_rfl

end Lookup
