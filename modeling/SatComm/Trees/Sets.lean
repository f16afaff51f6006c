import Mathlib.Data.List.Basic
import Mathlib.Data.List.InsertIdx
import Mathlib.Tactic.Common

/-!
# Ordered sets as search trees

A set with a comparator is kept in a binary tree, and an operation on it descends the tree by what
the comparator says of the elements it meets. Where a descent ends is a position in the sequence of
the elements. Nothing is assumed of the comparator here: `bound_eq` says where a descent ends if the
elements to the right of which it goes are an initial part of the sequence.

Elements are put in and taken out at positions. How the tree is balanced is left open: the tag of
a node is whatever this depends on.
-/

namespace Trees

variable {β α : Type*}

inductive Tree (β α : Type*)
  | leaf
  | node (tag : β) (left : Tree β α) (value : α) (right : Tree β α)
deriving DecidableEq

namespace Tree

def inorder : Tree β α → List α
  | leaf => []
  | node _ left value right => left.inorder ++ value :: right.inorder

/-- The position that a descent comes to if it goes to the right of the elements of `cut`. -/
def bound (cut : α → Bool) : Tree β α → Nat
  | leaf => 0
  | node _ left value right =>
    if cut value then left.inorder.length + 1 + right.bound cut else left.bound cut

variable {cut : α → Bool}

@[simp]
theorem inorder_leaf : (leaf : Tree β α).inorder = [] := rfl

@[simp]
theorem inorder_node (tag : β) (left : Tree β α) (value : α) (right : Tree β α) :
    (node tag left value right).inorder = left.inorder ++ value :: right.inorder := rfl

theorem bound_le_length (cut : α → Bool) (t : Tree β α) : t.bound cut ≤ t.inorder.length := by
  induction t with
  | leaf => exact Nat.le_refl 0
  | node tag left value right ihleft ihright =>
    rw [bound, inorder_node, List.length_append, List.length_cons]
    split <;> omega

/-- Two descents that agree on the elements of the tree end at one position. -/
theorem bound_congr {cut' : α → Bool} {t : Tree β α} (h : ∀ a ∈ t.inorder, cut a = cut' a) :
    t.bound cut = t.bound cut' := by
  induction t with
  | leaf => rfl
  | node tag left value right ihleft ihright =>
    rw [inorder_node] at h
    have hleft := ihleft fun a ha => h a (List.mem_append_left _ ha)
    have hright := ihright fun a ha => h a (List.mem_append_right _ (List.mem_cons_of_mem _ ha))
    rw [bound, bound, h value (List.mem_append_right _ List.mem_cons_self), hleft, hright]

/-- A descent goes to the right of the element before the position it ends at. -/
theorem cut_of_getElem?_eq {t : Tree β α} {n : Nat} {a : α} (hn : t.bound cut = n + 1)
    (ha : t.inorder[n]? = some a) : cut a := by
  induction t generalizing n with
  | leaf => exact nomatch hn
  | node tag left value right ihleft ihright =>
    rw [bound] at hn
    rw [inorder_node] at ha
    split at hn
    · rename_i hvalue
      have hle := Nat.le_add_right left.inorder.length (right.bound cut)
      rcases Nat.eq_or_lt_of_le hle with heq | hlt
      · have hn : n = left.inorder.length := by omega
        rw [hn, List.getElem?_append_right (Nat.le_refl _), Nat.sub_self] at ha
        exact Option.some.inj ha ▸ hvalue
      · obtain ⟨k, hk⟩ : ∃ k, n = left.inorder.length + 1 + k :=
          ⟨n - (left.inorder.length + 1), by omega⟩
        rw [hk, List.getElem?_append_right (by omega), Nat.add_assoc, Nat.add_sub_cancel_left,
          Nat.add_comm 1 k, List.getElem?_cons_succ] at ha
        exact ihright (by omega) ha
    · have hlt : n < left.inorder.length := by
        have := bound_le_length cut left
        omega
      rw [List.getElem?_append_left hlt] at ha
      exact ihleft hn ha

/-- If the elements of `cut` are an initial part of the sequence, the descent ends behind it. -/
theorem bound_eq {t : Tree β α} (h : t.inorder.Pairwise fun a b => cut b → cut a) :
    t.bound cut = (t.inorder.takeWhile cut).length := by
  induction t with
  | leaf => rfl
  | node tag left value right ihleft ihright =>
    rw [inorder_node] at h ⊢
    obtain ⟨hleft, hright, hcross⟩ := List.pairwise_append.mp h
    rw [bound]
    split
    · rename_i hvalue
      have hall : ∀ a ∈ left.inorder, cut a :=
        fun a ha => hcross a ha value List.mem_cons_self hvalue
      rw [List.takeWhile_append_of_pos hall, List.takeWhile_cons_of_pos hvalue, List.length_append,
        List.length_cons, ihright (List.pairwise_cons.mp hright).2]
      omega
    · rename_i hvalue
      rw [ihleft hleft, List.takeWhile_append, List.takeWhile_cons_of_neg hvalue]
      split
      · rename_i hlength
        rw [hlength, List.append_nil]
      · rfl

theorem not_cut_of_mem_dropWhile {l : List α} (h : l.Pairwise fun a b => cut b → cut a) {a : α}
    (ha : a ∈ l.dropWhile cut) : ¬ cut a := by
  induction l with
  | nil => exact nomatch ha
  | cons x l ih =>
    obtain ⟨hx, hl⟩ := List.pairwise_cons.mp h
    by_cases hcut : cut x
    · rw [List.dropWhile_cons_of_pos hcut] at ha
      exact ih hl ha
    · rw [List.dropWhile_cons_of_neg hcut] at ha
      rcases List.mem_cons.mp ha with rfl | hmem
      · exact hcut
      · exact fun ha => hcut (hx a hmem ha)

theorem bound_of_append {t : Tree β α} {before after : List α} (h : t.inorder = before ++ after)
    (hbefore : ∀ a ∈ before, cut a) (hafter : ∀ a ∈ after, ¬ cut a) :
    t.bound cut = before.length := by
  have hwhile : after.takeWhile cut = [] := by
    cases after with
    | nil => rfl
    | cons a after => exact List.takeWhile_cons_of_neg (hafter a List.mem_cons_self)
  rw [bound_eq, h, List.takeWhile_append_of_pos hbefore, hwhile, List.append_nil]
  rw [h]
  refine List.pairwise_append.mpr ⟨?_, ?_, ?_⟩
  · exact List.pairwise_of_forall_mem_list fun a ha b _ _ => hbefore a ha
  · exact List.pairwise_of_forall_mem_list fun a _ b hb hcut => absurd hcut (hafter b hb)
  · exact fun a ha b _ _ => hbefore a ha

/-- The element at the lower bound of the key, if it is equivalent to the key. -/
def find? (comp : α → α → Bool) (t : Tree β α) (key : α) : Option α :=
  (t.inorder[t.bound fun a => comp a key]?).filter fun a => ! comp key a

end Tree

/-- How elements are put into a tree and taken out of it. -/
structure Balancing (β α : Type*) where
  insertAt : Tree β α → Nat → α → Tree β α
  eraseAt : Tree β α → Nat → Tree β α
  inorder_insertAt : ∀ t before after a, t.inorder = before ++ after →
    (insertAt t before.length a).inorder = before ++ a :: after
  inorder_eraseAt : ∀ t before a after, t.inorder = before ++ a :: after →
    (eraseAt t before.length).inorder = before ++ after

namespace Balancing

variable (b : Balancing β α) (comp : α → α → Bool)

/-- The key is put in unless the element before its place is equivalent to it. -/
def insert (t : Tree β α) (key : α) : Tree β α :=
  let n := t.bound fun a => ! comp key a
  if (t.inorder.take n).getLast?.all fun a => comp a key then b.insertAt t n key else t

def eraseRange (n : Nat) : Nat → Tree β α → Tree β α
  | 0, t => t
  | k + 1, t => eraseRange n k (b.eraseAt t n)

/-- The elements between the lower and the upper bound of the key are taken out; the number of
these is returned with the tree. -/
def erase (t : Tree β α) (key : α) : Tree β α × Nat :=
  let lower := t.bound fun a => comp a key
  let upper := t.bound fun a => ! comp key a
  (b.eraseRange lower (upper - lower) t, upper - lower)

/-- The elements that `keep` does not hold of are taken out, from the first one on. -/
def eraseUnless (keep : α → Bool) : List α → Nat → Tree β α → Tree β α
  | [], _, t => t
  | a :: as, n, t =>
    if keep a then eraseUnless keep as (n + 1) t else eraseUnless keep as n (b.eraseAt t n)

def purge (keep : α → Bool) (t : Tree β α) : Tree β α := b.eraseUnless keep t.inorder 0 t

variable {b comp}

theorem inorder_eraseUnless (keep : α → Bool) (before after : List α) {t : Tree β α}
    (h : t.inorder = before ++ after) :
    (b.eraseUnless keep after before.length t).inorder = before ++ after.filter keep := by
  induction after generalizing before t with
  | nil => exact h
  | cons a after ih =>
    rw [eraseUnless]
    split
    · rename_i hkeep
      have := ih (before ++ [a]) (t := t) (by rw [h, List.append_assoc]; rfl)
      rw [List.length_append, List.length_singleton] at this
      rw [this, List.filter_cons_of_pos hkeep, List.append_assoc]
      rfl
    · rename_i hkeep
      rw [List.filter_cons_of_neg hkeep]
      exact ih before (b.inorder_eraseAt t before a after h)

theorem inorder_purge (keep : α → Bool) (t : Tree β α) :
    (b.purge keep t).inorder = t.inorder.filter keep :=
  inorder_eraseUnless keep [] t.inorder rfl

theorem inorder_insert {t : Tree β α} {key : α} (h : ∀ a ∈ t.inorder, ¬ comp key a → comp a key) :
    ∃ before after, t.inorder = before ++ after ∧
      before.length = t.bound (fun a => ! comp key a) ∧
      (b.insert comp t key).inorder = before ++ key :: after := by
  have hle := t.bound_le_length fun a => ! comp key a
  have hlength : (t.inorder.take (t.bound fun a => ! comp key a)).length = t.bound _ :=
    List.length_take_of_le hle
  refine ⟨_, _, (List.take_append_drop _ _).symm, hlength, ?_⟩
  rw [insert, if_pos, ← b.inorder_insertAt t _ _ key (List.take_append_drop _ _).symm, hlength]
  rw [Option.all_eq_true]
  intro a ha
  apply h a (List.mem_of_mem_take (List.mem_of_getLast? ha))
  rw [List.getLast?_take] at ha
  split at ha
  · exact nomatch ha
  · rename_i hn
    obtain ⟨n, hn⟩ := Nat.exists_eq_succ_of_ne_zero hn
    rw [hn, Nat.succ_sub_one, List.getElem?_eq_getElem (by omega), Option.some_or] at ha
    simpa using Tree.cut_of_getElem?_eq hn (ha ▸ List.getElem?_eq_getElem (by omega))

theorem inorder_insert_ne_nil (t : Tree β α) (key : α) : (b.insert comp t key).inorder ≠ [] := by
  simp only [insert]
  split
  · have hlength : (t.inorder.take (t.bound fun a => ! comp key a)).length = t.bound _ :=
      List.length_take_of_le (t.bound_le_length _)
    have hinsert := b.inorder_insertAt t _ _ key (List.take_append_drop
      (t.bound fun a => ! comp key a) _).symm
    rw [hlength] at hinsert
    rw [hinsert]
    exact List.append_ne_nil_of_right_ne_nil _ (List.cons_ne_nil _ _)
  · rename_i hlast
    intro hnil
    rw [hnil] at hlast
    exact hlast (by simp)

/-- The key is put before the elements that it is below. -/
theorem inorder_insert_of_append {t : Tree β α} {key : α} {before after : List α}
    (h : t.inorder = before ++ after) (hbefore : ∀ a ∈ before, ¬ comp key a ∧ comp a key)
    (hafter : ∀ a ∈ after, comp key a) :
    (b.insert comp t key).inorder = before ++ key :: after := by
  have hbound : t.bound (fun a => ! comp key a) = before.length := by
    refine Tree.bound_of_append h (fun a ha => ?_) (fun a ha => ?_)
    · simpa using (hbefore a ha).1
    · simpa using hafter a ha
  have hcomp : ∀ a ∈ t.inorder, ¬ comp key a → comp a key := by
    intro a ha hnot
    rw [h] at ha
    rcases List.mem_append.mp ha with ha | ha
    · exact (hbefore a ha).2
    · exact absurd (hafter a ha) hnot
  obtain ⟨before', after', h', hlength, hinorder⟩ := inorder_insert (b := b) hcomp
  obtain ⟨rfl, rfl⟩ := List.append_inj (h'.symm.trans h) (hlength.trans hbound)
  exact hinorder

theorem erase_snd_le (t : Tree β α) (key : α) : (b.erase comp t key).2 ≤ t.inorder.length :=
  Nat.le_trans (Nat.sub_le _ _) (t.bound_le_length _)

theorem erase_of_eq_zero {t : Tree β α} {key : α} (h : (b.erase comp t key).2 = 0) :
    (b.erase comp t key).1 = t := by
  rw [erase] at h ⊢
  dsimp only at h ⊢
  rw [h]
  rfl

/-- Where no element is equivalent to the key, nothing is taken out. -/
theorem erase_snd_of_forall {t : Tree β α} {key : α}
    (h : ∀ a ∈ t.inorder, comp a key = ! comp key a) : (b.erase comp t key).2 = 0 := by
  show t.bound _ - t.bound _ = 0
  rw [Tree.bound_congr h, Nat.sub_self]

theorem erase_of_append {t : Tree β α} {key x : α} {before after : List α}
    (h : t.inorder = before ++ x :: after) (hbefore : ∀ a ∈ before, comp a key ∧ ¬ comp key a)
    (hx : ¬ comp x key ∧ ¬ comp key x) (hafter : ∀ a ∈ after, ¬ comp a key ∧ comp key a) :
    (b.erase comp t key).1.inorder = before ++ after ∧ (b.erase comp t key).2 = 1 := by
  have hlower : t.bound (fun a => comp a key) = before.length := by
    refine Tree.bound_of_append h (fun a ha => (hbefore a ha).1) ?_
    rintro a (_ | ⟨_, ha⟩)
    · exact hx.1
    · exact (hafter a ha).1
  have hupper : t.bound (fun a => ! comp key a) = before.length + 1 := by
    have h' : t.inorder = (before ++ [x]) ++ after := by rw [h, List.append_assoc]; rfl
    rw [Tree.bound_of_append h', List.length_append, List.length_singleton]
    · intro a ha
      rcases List.mem_append.mp ha with ha | ha
      · simpa using (hbefore a ha).2
      · rw [List.mem_singleton.mp ha]
        simpa using hx.2
    · intro a ha
      simpa using (hafter a ha).2
  rw [erase]
  dsimp only
  rw [hlower, hupper, Nat.add_sub_cancel_left]
  exact ⟨b.inorder_eraseAt t before x after h, rfl⟩

theorem find?_of_append {t : Tree β α} {key x : α} {before after : List α}
    (h : t.inorder = before ++ x :: after) (hbefore : ∀ a ∈ before, comp a key)
    (hx : ¬ comp x key ∧ ¬ comp key x) (hafter : ∀ a ∈ after, ¬ comp a key) :
    t.find? comp key = some x := by
  have hlower : t.bound (fun a => comp a key) = before.length := by
    refine Tree.bound_of_append h hbefore ?_
    rintro a (_ | ⟨_, ha⟩)
    · exact hx.1
    · exact hafter a ha
  rw [Tree.find?, hlower, h, List.getElem?_append_right (Nat.le_refl _), Nat.sub_self,
    List.getElem?_cons_zero, Option.filter_some, if_pos (by simpa using hx.2)]

/-! ### A tree that is not balanced -/

/-- The right tree is put under the last element of the left one. -/
def join : Tree β α → Tree β α → Tree β α
  | .leaf, t => t
  | .node tag left value right, t => .node tag left value (join right t)

def plainInsertAt (tag : β) : Tree β α → Nat → α → Tree β α
  | .leaf, _, a => .node tag .leaf a .leaf
  | .node tag' left value right, n, a =>
    if n ≤ left.inorder.length then .node tag' (plainInsertAt tag left n a) value right
    else .node tag' left value (plainInsertAt tag right (n - left.inorder.length - 1) a)

def plainEraseAt : Tree β α → Nat → Tree β α
  | .leaf, _ => .leaf
  | .node tag left value right, n =>
    if n < left.inorder.length then .node tag (plainEraseAt left n) value right
    else if n = left.inorder.length then join left right
    else .node tag left value (plainEraseAt right (n - left.inorder.length - 1))

theorem inorder_join (t t' : Tree β α) : (join t t').inorder = t.inorder ++ t'.inorder := by
  induction t with
  | leaf => rfl
  | node tag left value right _ ihright =>
    rw [join, Tree.inorder_node, ihright, Tree.inorder_node, List.append_assoc, List.cons_append]

theorem inorder_plainInsertAt (tag : β) (t : Tree β α) (before after : List α) (a : α)
    (h : t.inorder = before ++ after) :
    (plainInsertAt tag t before.length a).inorder = before ++ a :: after := by
  induction t generalizing before after with
  | leaf =>
    obtain ⟨rfl, rfl⟩ := List.append_eq_nil_iff.mp h.symm
    rfl
  | node tag' left value right ihleft ihright =>
    rw [Tree.inorder_node] at h
    rw [plainInsertAt]
    -- The place is in the left tree, behind the value, or where these two meet.
    obtain ⟨rest, hbefore, hrest⟩ | ⟨rest, hleft, hafter⟩ := List.append_eq_append_iff.mp h
    · cases rest with
      | nil =>
        rw [List.append_nil] at hbefore
        rw [List.nil_append] at hrest
        rw [hbefore, if_pos (Nat.le_refl _), Tree.inorder_node,
          ihleft left.inorder [] (List.append_nil _).symm, ← hrest, List.append_assoc]
        rfl
      | cons c rest =>
        obtain ⟨rfl, hright⟩ := List.cons.inj hrest
        have hlength : before.length = left.inorder.length + 1 + rest.length := by
          rw [hbefore, List.length_append, List.length_cons]
          omega
        rw [if_neg (by omega), hlength, Nat.sub_sub, Nat.add_sub_cancel_left, Tree.inorder_node,
          ihright rest after hright, hbefore, List.append_assoc]
        rfl
    · rw [if_pos (by rw [hleft, List.length_append]; omega), Tree.inorder_node,
        ihleft before rest hleft, hafter, List.append_assoc, List.cons_append]

theorem inorder_plainEraseAt (t : Tree β α) (before : List α) (a : α) (after : List α)
    (h : t.inorder = before ++ a :: after) :
    (plainEraseAt t before.length).inorder = before ++ after := by
  induction t generalizing before after with
  | leaf => simp at h
  | node tag left value right ihleft ihright =>
    rw [Tree.inorder_node] at h
    rw [plainEraseAt]
    obtain ⟨rest, hbefore, hrest⟩ | ⟨rest, hleft, hafter⟩ := List.append_eq_append_iff.mp h
    · cases rest with
      | nil =>
        rw [List.append_nil] at hbefore
        obtain ⟨-, hright⟩ := List.cons.inj hrest
        rw [hbefore, if_neg (Nat.lt_irrefl _), if_pos rfl, inorder_join, hright]
      | cons c rest =>
        obtain ⟨rfl, hright⟩ := List.cons.inj hrest
        have hlength : before.length = left.inorder.length + 1 + rest.length := by
          rw [hbefore, List.length_append, List.length_cons]
          omega
        rw [if_neg (by omega), if_neg (by omega), hlength, Nat.sub_sub, Nat.add_sub_cancel_left,
          Tree.inorder_node, ihright rest after hright, hbefore, List.append_assoc]
        rfl
    · cases rest with
      | nil =>
        rw [List.append_nil] at hleft
        obtain ⟨-, hright⟩ := List.cons.inj hafter
        rw [hleft, if_neg (Nat.lt_irrefl _), if_pos rfl, inorder_join, hright, hleft]
      | cons c rest =>
        obtain ⟨rfl, hrest⟩ := List.cons.inj hafter
        rw [if_pos (by rw [hleft, List.length_append, List.length_cons]; omega), Tree.inorder_node,
          ihleft before rest hleft, hrest, List.append_assoc]
        rfl

def plain (tag : β) : Balancing β α where
  insertAt := plainInsertAt tag
  eraseAt := plainEraseAt
  inorder_insertAt := inorder_plainInsertAt tag
  inorder_eraseAt := inorder_plainEraseAt

end Balancing

end Trees
