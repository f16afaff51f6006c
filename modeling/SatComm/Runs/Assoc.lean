import Mathlib

/-!
# Association lists in key order

A finite map as the sequence of its pairs, keys strictly increasing. Lookup and the two ways of
writing (to a key that is there, to a key that is not) are related to the list of values: a
write exchanges one value or adds one, and the rest stays.
-/

namespace Assoc

variable {κ β : Type*} [LinearOrder κ]

def find (m : List (κ × β)) (k : κ) : Option β :=
  match m with
  | [] => none
  | p :: m => if p.1 = k then some p.2 else find m k

/-- Write to a key that is there. -/
def assign (m : List (κ × β)) (k : κ) (v : β) : List (κ × β) :=
  m.map fun p => if p.1 = k then (k, v) else p

/-- Write to a key that is not there; a key that is there keeps its value. -/
def insert (m : List (κ × β)) (k : κ) (v : β) : List (κ × β) :=
  match m with
  | [] => [(k, v)]
  | p :: m => if k < p.1 then (k, v) :: p :: m else if p.1 = k then p :: m else p :: insert m k v

def keys (m : List (κ × β)) : List κ := m.map Prod.fst

def values (m : List (κ × β)) : List β := m.map Prod.snd

/-- The keys are strictly increasing. -/
def Sorted (m : List (κ × β)) : Prop := m.Pairwise fun p q => p.1 < q.1

variable {m : List (κ × β)} {k : κ} {v : β}

theorem find_eq_none_iff : find m k = none ↔ k ∉ keys m := by
  induction m with
  | nil => simp [find, keys]
  | cons p m ih =>
    by_cases h : p.1 = k
    · simp [find, keys, h]
    · have h' : ¬ k = p.1 := fun heq => h heq.symm
      simp only [find, h, ↓reduceIte, ih]
      simp [keys, h']

theorem mem_of_find (h : find m k = some v) : (k, v) ∈ m := by
  induction m with
  | nil => cases h
  | cons p m ih =>
    rw [find] at h
    split at h
    · rename_i hk
      obtain rfl := Option.some.inj h
      subst hk
      exact List.mem_cons_self
    · exact List.mem_cons_of_mem _ (ih h)

theorem find_of_mem (hm : Sorted m) (h : (k, v) ∈ m) : find m k = some v := by
  induction m with
  | nil => cases h
  | cons p m ih =>
    obtain ⟨hp, hm⟩ := List.pairwise_cons.mp hm
    rcases List.mem_cons.mp h with rfl | hmem
    · simp [find]
    · have hne : ¬ p.1 = k := (hp _ hmem).ne
      rw [find, if_neg hne]
      exact ih hm hmem

theorem keys_assign (m : List (κ × β)) (k : κ) (v : β) : keys (assign m k v) = keys m := by
  simp only [keys, assign, List.map_map]
  apply List.map_congr_left
  intro p _
  by_cases h : p.1 = k <;> simp [h]

theorem sorted_iff : Sorted m ↔ (keys m).Pairwise (· < ·) := by
  simp [Sorted, keys, List.pairwise_map]

theorem Sorted.assign (hm : Sorted m) (k : κ) (v : β) : Sorted (assign m k v) := by
  rw [sorted_iff, keys_assign]
  exact sorted_iff.mp hm

theorem find_assign_of_ne {k' : κ} (h : k' ≠ k) : find (assign m k v) k' = find m k' := by
  induction m with
  | nil => rfl
  | cons p m ih =>
    have hcons : Assoc.assign (p :: m) k v =
        (if p.1 = k then (k, v) else p) :: Assoc.assign m k v := rfl
    rw [hcons, find, find, ih]
    by_cases hp : p.1 = k
    · simp [hp, h.symm]
    · simp [hp]

theorem find_assign_self {old : β} (h : find m k = some old) (new : β) :
    find (assign m k new) k = some new := by
  induction m with
  | nil => cases h
  | cons p m ih =>
    have hcons : Assoc.assign (p :: m) k new =
        (if p.1 = k then (k, new) else p) :: Assoc.assign m k new := rfl
    rw [hcons, find]
    by_cases hp : p.1 = k
    · simp [hp]
    · rw [find, if_neg hp] at h
      simp only [hp, ↓reduceIte]
      exact ih h

theorem assign_of_not_mem (h : k ∉ keys m) : assign m k v = m := by
  unfold assign
  conv_rhs => rw [← List.map_id m]
  apply List.map_congr_left
  intro p hp
  have hne : p.1 ≠ k := fun heq => h (heq ▸ List.mem_map_of_mem hp)
  simp [hne]

/-- Writing to a key that is there exchanges its value. -/
theorem exists_values_assign {old : β} (hm : Sorted m) (h : find m k = some old) :
    ∃ rest, (values m).Perm (old :: rest) ∧
      ∀ new, (values (assign m k new)).Perm (new :: rest) := by
  induction m with
  | nil => cases h
  | cons p m ih =>
    obtain ⟨hp, hm⟩ := List.pairwise_cons.mp hm
    by_cases hk : p.1 = k
    · subst hk
      have hold : p.2 = old := by simpa [find] using h
      have hnot : p.1 ∉ keys m := by
        intro hmem
        obtain ⟨q, hq, heq⟩ := List.mem_map.mp hmem
        exact (hp q hq).ne heq.symm
      refine ⟨values m, by simp [values, hold], fun new => ?_⟩
      have hsame := assign_of_not_mem (v := new) hnot
      simp only [Assoc.assign] at hsame
      simp [values, Assoc.assign, hsame]
    · rw [find, if_neg hk] at h
      obtain ⟨rest, hperm, hassign⟩ := ih hm h
      refine ⟨p.2 :: rest, ?_, fun new => ?_⟩
      · exact (hperm.cons p.2).trans (List.Perm.swap _ _ _)
      · have hstep : (values (Assoc.assign (p :: m) k new)) =
            p.2 :: values (Assoc.assign m k new) := by
          simp [values, Assoc.assign, hk]
        rw [hstep]
        exact ((hassign new).cons p.2).trans (List.Perm.swap _ _ _)

theorem insert_perm (h : k ∉ keys m) : (insert m k v).Perm ((k, v) :: m) := by
  induction m with
  | nil => exact List.Perm.refl _
  | cons p m ih =>
    have hk : ¬ p.1 = k := fun heq => h (by simp [keys, heq])
    have hrest : k ∉ keys m := fun hmem => h (List.mem_cons_of_mem _ hmem)
    rw [insert]
    split
    · exact List.Perm.refl _
    · exact ((ih hrest).cons p).trans (List.Perm.swap _ _ _)

theorem find_insert_self (h : find m k = none) (v : β) : find (insert m k v) k = some v := by
  induction m with
  | nil => simp [insert, find]
  | cons p m ih =>
    have hk : ¬ p.1 = k := by
      intro heq
      rw [find, if_pos heq] at h
      cases h
    rw [find, if_neg hk] at h
    rw [insert, if_neg hk]
    split
    · simp [find]
    · rw [find, if_neg hk]
      exact ih h

/-- Writing to a new key adds its value. -/
theorem values_insert (h : find m k = none) (v : β) :
    (values (insert m k v)).Perm (v :: values m) :=
  (insert_perm (find_eq_none_iff.mp h)).map Prod.snd

/-- A key that is there keeps its value. -/
theorem insert_of_find {old : β} (hm : Sorted m) (h : find m k = some old) (v : β) :
    insert m k v = m := by
  induction m with
  | nil => cases h
  | cons p m ih =>
    obtain ⟨hp, hm⟩ := List.pairwise_cons.mp hm
    rw [insert]
    by_cases hk : p.1 = k
    · rw [if_neg (by rw [hk]; exact lt_irrefl k), if_pos hk]
    · rw [find, if_neg hk] at h
      have hlt : p.1 < k := hp _ (mem_of_find h)
      rw [if_neg hlt.asymm, if_neg hk, ih hm h]

theorem sorted_insert_of_not_mem (hm : Sorted m) (h : k ∉ keys m) (v : β) :
    Sorted (insert m k v) := by
  induction m with
  | nil => exact List.pairwise_singleton _ _
  | cons p m ih =>
    obtain ⟨hp, hm'⟩ := List.pairwise_cons.mp hm
    have hk : ¬ p.1 = k := fun heq => h (by simp [keys, heq])
    have hrest : k ∉ keys m := fun hmem => h (List.mem_cons_of_mem _ hmem)
    rw [insert, if_neg hk]
    split
    · rename_i hlt
      refine List.pairwise_cons.mpr ⟨?_, hm⟩
      intro q hq
      rcases List.mem_cons.mp hq with rfl | hq
      · exact hlt
      · exact hlt.trans (hp q hq)
    · rename_i hlt
      refine List.pairwise_cons.mpr ⟨?_, ih hm' hrest⟩
      intro q hq
      rcases List.mem_cons.mp ((insert_perm hrest).mem_iff.mp hq) with rfl | hq
      · exact lt_of_le_of_ne (not_lt.mp hlt) hk
      · exact hp q hq

theorem Sorted.insert (hm : Sorted m) (k : κ) (v : β) : Sorted (insert m k v) := by
  cases hf : find m k with
  | some old => rwa [insert_of_find hm hf]
  | none => exact sorted_insert_of_not_mem hm (find_eq_none_iff.mp hf) v

end Assoc
