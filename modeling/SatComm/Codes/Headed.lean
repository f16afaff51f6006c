import Mathlib.Data.List.Basic
import Mathlib.Tactic.Common

/-!
# Sections in one list

Sections are stored one after another in a list, each as a header, which says how many items follow,
and these items. A walk that skips from header to header finds a section by its key. An item is
exchanged in place, and what is found of all other items and sections stays the same.
-/

namespace Headed

variable {α κ : Type*}

/-- The header says how many items follow it. -/
structure Section (count : α → Int) where
  header : α
  items : List α
  count_header : count header = items.length

variable {count : α → Int}

def Section.entries (s : Section count) : List α := s.header :: s.items

def flatten (ss : List (Section count)) : List α := ss.flatMap Section.entries

@[simp]
theorem flatten_cons (s : Section count) (ss : List (Section count)) :
    flatten (s :: ss) = s.header :: (s.items ++ flatten ss) := rfl

theorem flatten_append (ss ts : List (Section count)) :
    flatten (ss ++ ts) = flatten ss ++ flatten ts :=
  List.flatMap_append

/-! ## The walk -/

/-- The entry at an index, which may be out of range. -/
def entryAt? (l : List α) (i : Int) : Option α := if i < 0 then none else l[i.toNat]?

theorem entryAt?_natCast (l : List α) (i : ℕ) : entryAt? l i = l[i]? := by
  rw [entryAt?, if_neg (by omega), Int.toNat_natCast]

section Walk

variable [DecidableEq κ] (count : α → Int) (key : α → κ) (k : κ) (l : List α)

/-- From an index on, the header with the key and where it is, or where the walk has left the list.
`none` when so many steps are not enough, or the walk leaves the list at its front. -/
def walk : ℕ → Int → Option (Option α × Int)
  | 0, i => if l.length ≤ i then some (none, i) else none
  | fuel + 1, i =>
    if l.length ≤ i then some (none, i)
    else
      match entryAt? l i with
      | none => none
      | some a => if key a = k then some (some a, i) else walk fuel (i + count a + 1)

end Walk

section Find

variable [DecidableEq κ] {key : α → κ} {k : κ} {s t : Section count} {ss ts : List (Section count)}
  {i : ℕ}

/-- The section with a key, and where its header is. -/
def find (key : α → κ) (k : κ) : List (Section count) → Option (ℕ × Section count)
  | [] => none
  | s :: ss =>
    if key s.header = k then some (0, s)
    else (find key k ss).map fun p => (p.1 + s.items.length + 1, p.2)

/-- It is behind sections with other keys. -/
theorem find_append (hss : ∀ t ∈ ss, key t.header ≠ k) (hs : key s.header = k) :
    find key k (ss ++ s :: ts) = some ((flatten ss).length, s) := by
  induction ss with
  | nil => exact if_pos hs
  | cons t ss ih =>
    obtain ⟨ht, hss⟩ := List.forall_mem_cons.mp hss
    rw [List.cons_append, find, if_neg ht, ih hss, Option.map_some, flatten_cons,
      List.length_cons, List.length_append]
    congr 2
    omega

theorem exists_append_of_find (h : find key k ss = some (i, s)) :
    ∃ us ts, ss = us ++ s :: ts ∧ (∀ t ∈ us, key t.header ≠ k) ∧ key s.header = k ∧
      i = (flatten us).length := by
  induction ss generalizing i with
  | nil => cases h
  | cons t ss ih =>
    rw [find] at h
    split_ifs at h with hkey
    · obtain ⟨rfl, rfl⟩ := Prod.mk.inj (Option.some.inj h)
      exact ⟨[], ss, rfl, nofun, hkey, rfl⟩
    · obtain ⟨⟨j, u⟩, hfind, heq⟩ := Option.map_eq_some_iff.mp h
      obtain ⟨rfl, rfl⟩ := Prod.mk.inj heq
      obtain ⟨us, ts, rfl, hus, hs, hj⟩ := ih hfind
      refine ⟨t :: us, ts, rfl, List.forall_mem_cons.mpr ⟨hkey, hus⟩, hs, ?_⟩
      rw [flatten_cons, List.length_cons, List.length_append]
      dsimp only at hj ⊢
      omega

theorem find_eq_none_iff : find key k ss = none ↔ ∀ s ∈ ss, key s.header ≠ k := by
  induction ss with
  | nil => exact iff_of_true rfl nofun
  | cons t ss ih =>
    rw [find, List.forall_mem_cons]
    split_ifs with hkey
    · exact iff_of_false nofun fun h => h.1 hkey
    · rw [Option.map_eq_none_iff, ih]
      exact (and_iff_right hkey).symm

/-- The walk finds what there is to find. -/
theorem walk_append (us : List α) {fuel : ℕ} (hfuel : ss.length ≤ fuel) :
    walk count key k (us ++ flatten ss) fuel us.length =
      match find key k ss with
      | none => some (none, (us ++ flatten ss).length)
      | some (i, s) => some (some s.header, us.length + i) := by
  induction ss generalizing us fuel with
  | nil => cases fuel <;> simp [walk, find, flatten]
  | cons s ss ih =>
    obtain ⟨fuel, rfl⟩ : ∃ n, fuel = n + 1 := ⟨fuel - 1, by grind⟩
    have hentry : entryAt? (us ++ flatten (s :: ss)) us.length = some s.header := by
      rw [entryAt?_natCast, flatten_cons, List.getElem?_append_right (Nat.le_refl _),
        Nat.sub_self]
      rfl
    have hinside : ¬ ((us ++ flatten (s :: ss)).length : Int) ≤ us.length := by
      rw [flatten_cons, List.length_append, List.length_cons]
      omega
    rw [walk, if_neg hinside, hentry, find]
    dsimp only
    split_ifs with hkey
    · simp
    · have hnext := ih (us ++ s.entries) (Nat.le_of_succ_le_succ hfuel)
      have hflatten : us ++ s.entries ++ flatten ss = us ++ flatten (s :: ss) := by
        rw [List.append_assoc]
        rfl
      have hlength : ((us ++ s.entries).length : Int) = us.length + count s.header + 1 := by
        rw [s.count_header, List.length_append, Section.entries, List.length_cons]
        omega
      rw [hflatten, hlength] at hnext
      rw [hnext]
      cases find key k ss with
      | none => rfl
      | some p =>
        dsimp only [Option.map_some]
        congr 2
        rw [s.count_header]
        omega

/-- Every section takes an entry, so that as many steps as there are entries are enough. -/
theorem length_le_length_flatten (ss : List (Section count)) : ss.length ≤ (flatten ss).length := by
  induction ss with
  | nil => exact Nat.le_refl _
  | cons s ss ih =>
    rw [flatten_cons, List.length_cons, List.length_cons, List.length_append]
    omega

theorem walk_flatten :
    walk count key k (flatten ss) (flatten ss).length 0 =
      match find key k ss with
      | none => some (none, (flatten ss).length)
      | some (i, s) => some (some s.header, i) := by
  have hwalk := @walk_append _ _ count _ key k ss [] _ (length_le_length_flatten ss)
  simpa using hwalk

/-! ## Items -/

theorem getElem?_flatten {j : ℕ} (us : List (Section count)) (hj : j < s.entries.length) :
    (flatten (us ++ s :: ts))[(flatten us).length + j]? = s.entries[j]? := by
  have hsplit : flatten (us ++ s :: ts) = flatten us ++ (s.entries ++ flatten ts) :=
    flatten_append us (s :: ts)
  rw [hsplit, List.getElem?_append_right (Nat.le_add_right _ _), Nat.add_sub_cancel_left,
    List.getElem?_append_left hj]

/-- Behind the header there are the items. -/
theorem getElem?_of_find {j : ℕ} (h : find key k ss = some (i, s)) (hj : j < s.items.length) :
    (flatten ss)[i + (j + 1)]? = s.items[j]? := by
  obtain ⟨us, ts, rfl, -, -, rfl⟩ := exists_append_of_find h
  exact getElem?_flatten us (Nat.succ_lt_succ hj)

def Section.setItem (s : Section count) (j : ℕ) (b : α) : Section count where
  header := s.header
  items := s.items.set j b
  count_header := by rw [s.count_header, List.length_set]

/-- Exchange an item of the section with a key. -/
def setItem (key : α → κ) (k : κ) (j : ℕ) (b : α) : List (Section count) → List (Section count)
  | [] => []
  | s :: ss => if key s.header = k then s.setItem j b :: ss else s :: setItem key k j b ss

variable {j : ℕ} {b : α} {k' : κ}

theorem setItem_append (hss : ∀ t ∈ ss, key t.header ≠ k) (hs : key s.header = k) :
    setItem key k j b (ss ++ s :: ts) = ss ++ s.setItem j b :: ts := by
  induction ss with
  | nil => exact if_pos hs
  | cons t ss ih =>
    obtain ⟨ht, hss⟩ := List.forall_mem_cons.mp hss
    rw [List.cons_append, setItem, if_neg ht, ih hss, List.cons_append]

/-- In the list, this is one entry. -/
theorem flatten_setItem (h : find key k ss = some (i, s)) (hj : j < s.items.length) :
    flatten (setItem key k j b ss) = (flatten ss).set (i + (j + 1)) b := by
  obtain ⟨us, ts, rfl, hus, hs, rfl⟩ := exists_append_of_find h
  rw [setItem_append hus hs, flatten_append, flatten_append, flatten_cons, flatten_cons,
    List.set_append_right _ _ (Nat.le_add_right _ _), Nat.add_sub_cancel_left, List.set_cons_succ,
    List.set_append_left _ _ hj]
  rfl

/-- The other sections are found where they were, as they were. -/
theorem find_setItem :
    find key k' (setItem key k j b ss) =
      (find key k' ss).map fun p => (p.1, if k' = k then p.2.setItem j b else p.2) := by
  induction ss with
  | nil => rfl
  | cons s ss ih =>
    rw [setItem]
    by_cases hs : key s.header = k
    · rw [if_pos hs, find, find]
      by_cases hk' : key s.header = k'
      · rw [if_pos hk', show key (s.setItem j b).header = k' from hk', if_pos rfl, Option.map_some,
          if_pos (hk'.symm.trans hs)]
      · have hne : k' ≠ k := fun heq => hk' (hs.trans heq.symm)
        rw [if_neg hk', if_neg (show key (s.setItem j b).header ≠ k' from hk'), Option.map_map]
        congr 1
        funext p
        simp [Section.setItem, hne]
    · rw [if_neg hs, find, find]
      by_cases hk' : key s.header = k'
      · have hne : k' ≠ k := fun heq => hs (hk'.trans heq)
        rw [if_pos hk', if_pos hk', Option.map_some, if_neg hne]
      · rw [if_neg hk', if_neg hk', ih, Option.map_map, Option.map_map]
        rfl

theorem map_header_setItem :
    (setItem key k j b ss).map Section.header = ss.map Section.header := by
  induction ss with
  | nil => rfl
  | cons s ss ih =>
    rw [setItem]
    split_ifs
    · rfl
    · rw [List.map_cons, ih, List.map_cons]

end Find

end Headed
