import SatComm.Runs.Assoc

/-!
# Finite maps

An association list together with the order of its keys. A write creates or overwrites, `erase`
drops a key, `filterMap` changes or drops values. Each is described by its lookups and, where a
count of the values matters, by what it does to them up to order.
-/

namespace Assoc

variable {κ β : Type*} [LinearOrder κ]

/-- Pairs in the strict order of their keys. -/
@[ext]
structure Map (κ β : Type*) [LinearOrder κ] where
  pairs : List (κ × β)
  sorted : Sorted pairs

namespace Map

instance [DecidableEq β] : DecidableEq (Map κ β) := fun m m' =>
  decidable_of_iff (m.pairs = m'.pairs) (Map.ext_iff).symm

def empty : Map κ β := ⟨[], List.Pairwise.nil⟩

def get? (m : Map κ β) (k : κ) : Option β := find m.pairs k

def values (m : Map κ β) : List β := Assoc.values m.pairs

/-- Write to a key, whether it is there or not. -/
def set (m : Map κ β) (k : κ) (v : β) : Map κ β where
  pairs := if (find m.pairs k).isSome then assign m.pairs k v else Assoc.insert m.pairs k v
  sorted := by
    split
    · exact m.sorted.assign k v
    · exact m.sorted.insert k v

def erase (m : Map κ β) (k : κ) : Map κ β where
  pairs := m.pairs.filter fun p => p.1 ≠ k
  sorted := m.sorted.sublist List.filter_sublist

/-- Change every value or drop its key. -/
def filterMap (f : β → Option β) (m : Map κ β) : Map κ β where
  pairs := m.pairs.filterMap fun p => (f p.2).map (p.1, ·)
  sorted := by
    refine List.Pairwise.filterMap _ ?_ m.sorted
    intro p q hpq p' hp' q' hq'
    obtain ⟨_, _, rfl⟩ := Option.map_eq_some_iff.mp hp'
    obtain ⟨_, _, rfl⟩ := Option.map_eq_some_iff.mp hq'
    exact hpq

variable {m : Map κ β} {k k' : κ} {v : β}

@[simp]
theorem get?_empty (k : κ) : (empty : Map κ β).get? k = none := rfl

@[simp]
theorem values_empty : (empty : Map κ β).values = [] := rfl

theorem mem_pairs : (k, v) ∈ m.pairs ↔ m.get? k = some v :=
  ⟨find_of_mem m.sorted, mem_of_find⟩

theorem mem_values : v ∈ m.values ↔ ∃ k, m.get? k = some v := by
  constructor
  · intro h
    obtain ⟨⟨k, w⟩, hmem, rfl⟩ := List.mem_map.mp h
    exact ⟨k, mem_pairs.mp hmem⟩
  · rintro ⟨k, h⟩
    exact List.mem_map.mpr ⟨(k, v), mem_pairs.mpr h, rfl⟩

theorem mem_keys : k ∈ keys m.pairs ↔ (m.get? k).isSome := by
  rw [Option.isSome_iff_ne_none, get?, Ne, find_eq_none_iff, not_not]

theorem nodup_keys (m : Map κ β) : (keys m.pairs).Nodup :=
  (sorted_iff.mp m.sorted).imp ne_of_lt

/-- Where every value knows its key, the values give the keys. -/
theorem map_values_eq_keys {key : β → κ} (h : ∀ k v, m.get? k = some v → key v = k) :
    m.values.map key = keys m.pairs := by
  rw [values, Assoc.values, keys, List.map_map]
  exact List.map_congr_left fun p hp => h p.1 p.2 (mem_pairs.mp hp)

/-- Where what is read from a value can only be its key, no key is read twice. -/
theorem nodup_filterMap_values {f : β → Option κ}
    (h : ∀ k v, m.get? k = some v → ∀ k' ∈ f v, k' = k) : (m.values.filterMap f).Nodup := by
  have hkeys : m.values.filterMap f = (m.pairs.filter fun p => (f p.2).isSome).map Prod.fst := by
    rw [values, Assoc.values, List.filterMap_map, ← List.filterMap_eq_map, List.filterMap_filter]
    refine List.filterMap_congr fun p hp => ?_
    cases hf : f p.2 with
    | none => simp [hf]
    | some k' =>
      obtain rfl := h p.1 p.2 (mem_pairs.mp hp) k' hf
      simp [hf]
  rw [hkeys]
  exact (nodup_keys m).sublist (List.Sublist.map _ List.filter_sublist)

theorem get?_eq_of_pairs {o : Option β} (h : ∀ w, (k, w) ∈ m.pairs ↔ o = some w) :
    m.get? k = o := by
  apply Option.ext
  intro w
  rw [← mem_pairs, h]

@[simp]
theorem get?_erase (m : Map κ β) (k k' : κ) :
    (m.erase k).get? k' = if k' = k then none else m.get? k' := by
  apply get?_eq_of_pairs
  intro w
  rw [erase, List.mem_filter, mem_pairs]
  by_cases h : k' = k <;> simp [h]

@[simp]
theorem get?_filterMap (f : β → Option β) (m : Map κ β) (k : κ) :
    (m.filterMap f).get? k = (m.get? k).bind f := by
  apply get?_eq_of_pairs
  intro w
  rw [filterMap, List.mem_filterMap, Option.bind_eq_some_iff]
  constructor
  · rintro ⟨⟨k', u⟩, hmem, hu⟩
    obtain ⟨w', hw, heq⟩ := Option.map_eq_some_iff.mp hu
    obtain ⟨rfl, rfl⟩ := Prod.mk.inj heq
    exact ⟨u, mem_pairs.mp hmem, hw⟩
  · rintro ⟨u, hu, hw⟩
    exact ⟨(k, u), mem_pairs.mpr hu, by simp [hw]⟩

theorem get?_set_self (m : Map κ β) (k : κ) (v : β) : (m.set k v).get? k = some v := by
  rw [← mem_pairs, set]
  split
  · rename_i h
    obtain ⟨old, hold⟩ := Option.isSome_iff_exists.mp h
    exact List.mem_map.mpr ⟨(k, old), mem_of_find hold, by simp⟩
  · rename_i h
    have hnone : find m.pairs k = none := by simpa using h
    exact (insert_perm (find_eq_none_iff.mp hnone)).mem_iff.mpr List.mem_cons_self

theorem get?_set_of_ne (m : Map κ β) (v : β) (h : k' ≠ k) : (m.set k v).get? k' = m.get? k' := by
  unfold get? set
  split
  · exact find_assign_of_ne h
  · rename_i hk
    have hnone : find m.pairs k = none := by simpa using hk
    have hperm := insert_perm (v := v) (find_eq_none_iff.mp hnone)
    apply Option.ext
    intro w
    have hmem : (k', w) ∈ Assoc.insert m.pairs k v ↔ (k', w) ∈ m.pairs := by
      rw [hperm.mem_iff, List.mem_cons]
      simp [h]
    exact ⟨fun hw => find_of_mem m.sorted (hmem.mp (mem_of_find hw)),
      fun hw => find_of_mem (m.sorted.insert k v) (hmem.mpr (mem_of_find hw))⟩

@[simp]
theorem get?_set (m : Map κ β) (k k' : κ) (v : β) :
    (m.set k v).get? k' = if k' = k then some v else m.get? k' := by
  split
  · rename_i h
    rw [h]
    exact get?_set_self m k v
  · rename_i h
    exact get?_set_of_ne m v h

/-- A map is what it gives for its keys. -/
theorem ext_get? {m' : Map κ β} (h : ∀ k, m.get? k = m'.get? k) : m = m' := by
  have hnodup (n : Map κ β) : n.pairs.Nodup := (nodup_keys n).of_map _
  have hperm : m.pairs.Perm m'.pairs := by
    apply (List.perm_ext_iff_of_nodup (hnodup m) (hnodup m')).mpr
    rintro ⟨k, v⟩
    rw [mem_pairs, mem_pairs, h]
  have hpairs : m.pairs = m'.pairs :=
    hperm.eq_of_pairwise (fun _ _ _ _ hlt hgt => absurd hgt hlt.asymm) m.sorted m'.sorted
  exact Map.ext hpairs

/-- A key that was not there is dropped again. -/
theorem erase_set (h : m.get? k = none) (v : β) : (m.set k v).erase k = m := by
  apply ext_get?
  intro k'
  rw [get?_erase, get?_set]
  split_ifs with hk
  · rw [hk, h]
  · rfl

/-- Writing to a new key adds the value. -/
theorem values_set (h : m.get? k = none) (v : β) : (m.set k v).values.Perm (v :: m.values) := by
  have hnone : find m.pairs k = none := h
  simp only [values, set, hnone, Option.isSome_none, Bool.false_eq_true, if_false]
  exact values_insert hnone v

/-- Overwriting exchanges one value. -/
theorem exists_values_set {old : β} (h : m.get? k = some old) :
    ∃ rest, m.values.Perm (old :: rest) ∧ ∀ new, (m.set k new).values.Perm (new :: rest) := by
  have hsome : find m.pairs k = some old := h
  obtain ⟨rest, hperm, hassign⟩ := exists_values_assign m.sorted hsome
  refine ⟨rest, hperm, fun new => ?_⟩
  simp only [values, set, hsome, Option.isSome_some, if_true]
  exact hassign new

/-- What a key is dropped with. -/
theorem values_erase (h : m.get? k = some v) : m.values.Perm (v :: (m.erase k).values) := by
  obtain ⟨l, hl⟩ := m
  have hfind : find l k = some v := h
  clear h
  simp only [values, erase]
  induction l with
  | nil => cases hfind
  | cons p l ih =>
    obtain ⟨hp, htail⟩ := List.pairwise_cons.mp hl
    by_cases hk : p.1 = k
    · have hv : p.2 = v := by simpa [find, hk] using hfind
      have hkeep : l.filter (fun q => q.1 ≠ k) = l := by
        rw [List.filter_eq_self]
        intro q hq
        exact decide_eq_true fun heq => (hp q hq).ne (hk.trans heq.symm)
      simp only [Assoc.values] at *
      rw [List.filter_cons_of_neg (by simp [hk]), hkeep, List.map_cons, hv]
    · rw [find, if_neg hk] at hfind
      have hrest := ih htail hfind
      simp only [Assoc.values] at *
      rw [List.filter_cons_of_pos (by simp [hk]), List.map_cons, List.map_cons]
      exact (hrest.cons p.2).trans (List.Perm.swap _ _ _)

theorem values_filterMap (f : β → Option β) (m : Map κ β) :
    (m.filterMap f).values = m.values.filterMap f := by
  simp only [values, Assoc.values, filterMap, List.map_filterMap, List.filterMap_map]
  congr 1
  funext p
  simp [Function.comp_def]

end Map

end Assoc
