import SatComm.Runs.Search

/-!
# Maps whose keys are read

A `std::map` whose keys are places and whose comparison reads them. Its nodes are given in their
sequence. What is read can change behind the back of the map: the operations look at it as it is
when they are called. Where it is increasing they are those of a map from what is read.
-/

namespace Keyed

open Search

variable {α β κ : Type*} [LinearOrder κ] (read : α → κ)

/-- What the comparison sees of a node. -/
def seen (n : α × β) : κ := read n.1

/-- `find`: the node at the lower bound, unless the key looked up is less than its key. -/
def lookup (k : κ) (nodes : List (α × β)) : Option β :=
  match above (seen read) k nodes with
  | [] => none
  | n :: _ => if k < seen read n then none else some n.2

/-- Writing to the node that `find` returns. -/
def assign (k : κ) (v : β) (nodes : List (α × β)) : List (α × β) :=
  below (seen read) k nodes ++
    match above (seen read) k nodes with
    | [] => []
    | n :: rest => if k < seen read n then n :: rest else (n.1, v) :: rest

def erase (k : κ) (nodes : List (α × β)) : List (α × β) :=
  below (seen read) k nodes ++
    match above (seen read) k nodes with
    | [] => []
    | n :: rest => if k < seen read n then n :: rest else rest

/-- `insert` with the place `a`, where `k` is read: a key that is there already keeps its node. -/
def insert (k : κ) (a : α) (v : β) (nodes : List (α × β)) : List (α × β) :=
  if (lookup read k nodes).isSome then nodes
  else below (seen read) k nodes ++ (a, v) :: above (seen read) k nodes

variable {read} {k : κ} {a : α} {v : β} {nodes : List (α × β)}

theorem lookup_nil (k : κ) : lookup read k ([] : List (α × β)) = none := rfl

/-- Either the lower bound is a node with the key, or there is none. -/
theorem lookup_cases (h : Increasing (seen read) nodes) (k : κ) :
    (∃ n rest, above (seen read) k nodes = [n] ++ rest ∧ n ∈ nodes ∧ seen read n = k ∧
        lookup read k nodes = some n.2 ∧ ∀ y ∈ rest, k < seen read y) ∨
      (lookup read k nodes = none ∧ ∀ y ∈ above (seen read) k nodes, k < seen read y) := by
  rcases above_cases h k with ⟨n, rest, habove, heq, hgt⟩ | hgt
  · have hn : n ∈ nodes := mem_of_mem_above (habove ▸ List.mem_cons_self)
    exact .inl ⟨n, rest, habove, hn, heq, by simp [lookup, habove, heq], hgt⟩
  · refine .inr ⟨?_, hgt⟩
    unfold lookup
    split
    · rfl
    · rename_i n rest habove
      have hn : n ∈ above (seen read) k nodes := habove ▸ List.mem_cons_self
      exact if_pos (hgt n hn)

/-- The map holds what its nodes hold. -/
theorem lookup_eq_some_iff (h : Increasing (seen read) nodes) :
    lookup read k nodes = some v ↔ ∃ n ∈ nodes, seen read n = k ∧ n.2 = v := by
  rcases lookup_cases h k with ⟨n, rest, habove, hn, heq, hlook, hgt⟩ | ⟨hlook, hgt⟩
  · rw [hlook, Option.some.injEq]
    constructor
    · rintro rfl
      exact ⟨n, hn, heq, rfl⟩
    · rintro ⟨m, hm, hmk, rfl⟩
      have hboth := (mem_exchange [n] [n] habove (by simpa using heq) hgt m).mp (by
        rw [← habove, below_append_above]
        exact hm)
      rcases hboth with ⟨-, hne⟩ | hmem
      · exact absurd hmk hne
      · rw [List.mem_singleton.mp hmem]
  · rw [hlook]
    constructor
    · intro hv
      cases hv
    · rintro ⟨m, hm, hmk, -⟩
      have hboth := (mem_exchange [] [] (List.nil_append _).symm (by simp) hgt m).mp (by
        rw [List.nil_append, below_append_above]
        exact hm)
      rcases hboth with ⟨-, hne⟩ | hmem
      · exact absurd hmk hne
      · cases hmem

theorem lookup_eq_none_iff (h : Increasing (seen read) nodes) :
    lookup read k nodes = none ↔ ∀ n ∈ nodes, seen read n ≠ k := by
  rw [Option.eq_none_iff_forall_ne_some]
  constructor
  · intro hnone n hn hk
    exact hnone n.2 ((lookup_eq_some_iff h).mpr ⟨n, hn, hk, rfl⟩)
  · intro hall v hv
    obtain ⟨n, hn, hk, -⟩ := (lookup_eq_some_iff h).mp hv
    exact hall n hn hk

/-- A map that differs from another one at the key `k`. -/
theorem lookup_of_mem {nodes' : List (α × β)} (h : Increasing (seen read) nodes)
    (h' : Increasing (seen read) nodes') {new : List (α × β)} (hnew : ∀ n ∈ new, seen read n = k)
    (hmem : ∀ n, n ∈ nodes' ↔ (n ∈ nodes ∧ seen read n ≠ k) ∨ n ∈ new) {b : κ} (hb : b ≠ k) :
    lookup read b nodes' = lookup read b nodes := by
  apply Option.ext
  intro v
  rw [lookup_eq_some_iff h, lookup_eq_some_iff h']
  constructor
  · rintro ⟨n, hn, hnb, hv⟩
    rcases (hmem n).mp hn with ⟨hold, -⟩ | hn
    · exact ⟨n, hold, hnb, hv⟩
    · exact absurd (hnb.symm.trans (hnew n hn)) hb
  · rintro ⟨n, hn, hnb, hv⟩
    exact ⟨n, (hmem n).mpr (.inl ⟨hn, fun hk => hb (hnb.symm.trans hk)⟩), hnb, hv⟩

/-! ## The operations -/

/-- Writing to a node that is there. -/
theorem assign_spec (h : Increasing (seen read) nodes) (hk : (lookup read k nodes).isSome) (v : β) :
    Increasing (seen read) (assign read k v nodes) ∧
      ∃ m ∈ nodes, seen read m = k ∧
        ∀ n, n ∈ assign read k v nodes ↔ (n ∈ nodes ∧ seen read n ≠ k) ∨ n ∈ [(m.1, v)] := by
  rcases lookup_cases h k with ⟨m, rest, habove, hm, heq, -, hgt⟩ | ⟨hlook, -⟩
  · have hassign : assign read k v nodes = below (seen read) k nodes ++ ([(m.1, v)] ++ rest) := by
      simp [assign, habove, heq]
    have hnew : ∀ n ∈ [(m.1, v)], seen read n = k := by
      intro n hn
      rw [List.mem_singleton.mp hn]
      exact heq
    rw [hassign]
    exact ⟨increasing_exchange h [m] habove hgt hnew le_rfl, m, hm, heq,
      mem_exchange [m] _ habove (by simpa using heq) hgt⟩
  · rw [hlook] at hk
    cases hk

theorem erase_spec (h : Increasing (seen read) nodes) (k : κ) :
    Increasing (seen read) (erase read k nodes) ∧
      ∀ n, n ∈ erase read k nodes ↔ (n ∈ nodes ∧ seen read n ≠ k) ∨ n ∈ [] := by
  rcases lookup_cases h k with ⟨m, rest, habove, hm, heq, -, hgt⟩ | ⟨-, hgt⟩
  · have herase : erase read k nodes = below (seen read) k nodes ++ ([] ++ rest) := by
      simp [erase, habove, heq]
    rw [herase]
    exact ⟨increasing_exchange h [m] habove hgt (by simp) (Nat.zero_le _),
      mem_exchange [m] [] habove (by simpa using heq) hgt⟩
  · have herase : erase read k nodes =
        below (seen read) k nodes ++ ([] ++ above (seen read) k nodes) := by
      unfold erase
      cases habove : above (seen read) k nodes with
      | nil => rfl
      | cons n rest =>
        have hn : k < seen read n := hgt n (habove ▸ List.mem_cons_self)
        simp [hn]
    rw [herase]
    exact ⟨increasing_exchange h [] (List.nil_append _).symm hgt (by simp) (Nat.zero_le _),
      mem_exchange [] [] (List.nil_append _).symm (by simp) hgt⟩

/-- A new key. -/
theorem insert_spec (h : Increasing (seen read) nodes) (ha : read a = k)
    (hk : lookup read k nodes = none) (v : β) :
    Increasing (seen read) (insert read k a v nodes) ∧
      ∀ n, n ∈ insert read k a v nodes ↔ (n ∈ nodes ∧ seen read n ≠ k) ∨ n ∈ [(a, v)] := by
  rcases lookup_cases h k with ⟨m, rest, -, -, -, hlook, -⟩ | ⟨-, hgt⟩
  · rw [hlook] at hk
    cases hk
  · have hinsert : insert read k a v nodes =
        below (seen read) k nodes ++ ([(a, v)] ++ above (seen read) k nodes) := by
      simp [insert, hk]
    have hnew : ∀ n ∈ [(a, v)], seen read n = k := by simpa [seen] using ha
    rw [hinsert]
    exact ⟨increasing_exchange h [] (List.nil_append _).symm hgt hnew le_rfl,
      mem_exchange [] _ (List.nil_append _).symm (by simp) hgt⟩

/-- What is read elsewhere does not matter. -/
theorem lookup_congr (read' : α → κ) (h : Increasing (seen read) nodes)
    (hread : ∀ n ∈ nodes, read' n.1 = read n.1) :
    Increasing (seen read') nodes ∧ ∀ k, lookup read' k nodes = lookup read k nodes := by
  have h' : Increasing (seen read') nodes := by
    refine List.Pairwise.imp_of_mem ?_ h
    intro n m hn hm hlt
    rw [seen, seen, hread n hn, hread m hm]
    exact hlt
  refine ⟨h', fun k => ?_⟩
  apply Option.ext
  intro v
  rw [lookup_eq_some_iff h, lookup_eq_some_iff h']
  constructor
  · rintro ⟨n, hn, hk, hv⟩
    exact ⟨n, hn, by rw [seen, ← hread n hn]; exact hk, hv⟩
  · rintro ⟨n, hn, hk, hv⟩
    exact ⟨n, hn, by rw [seen, hread n hn]; exact hk, hv⟩

end Keyed
