import Mathlib.Data.Rat.Floor
import Mathlib.Tactic.Common
import Mathlib.Tactic.Linarith

/-!
# Documents of a data format

A document is a tree of values. A value in it is found by the names on the way to it, and a schema
says which values are accepted there and what is read from them.
-/

namespace Trees

inductive Document
  | null
  | bool (value : Bool)
  | number (value : ℚ)
  | text (value : String)
  | array (items : List Document)
  | object (members : List (String × Document))

namespace Document

/-- The first member of this name. -/
def item (name : String) : Document → Option Document
  | object members => (members.find? (fun member => member.1 = name)).map (·.2)
  | _ => none

def objectItem (name : String) (d : Document) : Option Document :=
  match d.item name with
  | some (object members) => some (object members)
  | _ => none

def follow (d : Document) : List String → Option Document
  | [] => some d
  | name :: path => (d.item name).bind (fun inner => inner.follow path)

@[simp]
theorem follow_singleton (d : Document) (name : String) : d.follow [name] = d.item name := by
  simp [follow]

theorem follow_of_objectItem_eq_none {d : Document} {name : String} (h : d.objectItem name = none)
    (inner : String) (path : List String) : d.follow (name :: inner :: path) = none := by
  unfold objectItem at h
  cases hitem : d.item name with
  | none => simp [follow, hitem]
  | some found =>
    cases found with
    | object members => simp [hitem] at h
    | _ => simp only [follow, hitem, Option.bind_some]; rfl

theorem follow_of_objectItem {d found : Document} {name : String} (h : d.objectItem name = some found)
    (path : List String) : d.follow (name :: path) = found.follow path := by
  unfold objectItem at h
  cases hitem : d.item name with
  | none => simp [hitem] at h
  | some inner =>
    cases inner with
    | object members =>
      rw [hitem] at h
      cases h
      simp [follow, hitem]
    | _ => simp [hitem] at h

end Document

/-- What is accepted of a value, with what is read from it. -/
abbrev Schema (α : Type*) := Document → Option α

namespace Schema

variable {α β : Type*}

def text : Schema String
  | .text s => some s
  | _ => none

def bool : Schema Bool
  | .bool b => some b
  | _ => none

/-- The integers from `low` on, below `high`. -/
def integer (low high : Int) : Schema Int
  | .number q => if q.den = 1 ∧ low ≤ q.num ∧ q.num < high then some q.num else none
  | _ => none

def nullable (s : Schema α) : Schema (Option α)
  | .null => some none
  | d => (s d).map some

def nameIn (names : List (String × α)) : Schema α
  | .text s => names.lookup s
  | _ => none

/-- An array of which every item is accepted. -/
def listOf (s : Schema α) : Schema (List α)
  | .array items => items.mapM s
  | _ => none

def such (s : Schema α) (p : α → Prop) [DecidablePred p] : Schema α :=
  fun d => (s d).filter (fun a => p a)

end Schema

/-! ## Items read one by one -/

section Items

variable {α β : Type*}

/-- If every item is read, then dropping those that are not changes nothing. -/
theorem filterMap_of_mapM {f : α → Option β} {items : List α} {read : List β}
    (h : items.mapM f = some read) : items.filterMap f = read := by
  induction items generalizing read with
  | nil =>
    simp only [List.mapM_nil, Option.pure_def, Option.some.injEq] at h
    exact h
  | cons item items ih =>
    simp only [List.mapM_cons, Option.pure_def, Option.bind_eq_bind,
      Option.bind_eq_some_iff, Option.some.injEq] at h
    obtain ⟨b, hb, rest, hrest, rfl⟩ := h
    rw [List.filterMap_cons_some hb, ih hrest]

theorem mapM_eq_none_iff {f : α → Option β} {items : List α} :
    items.mapM f = none ↔ ∃ item ∈ items, f item = none := by
  induction items with
  | nil => simp
  | cons item items ih =>
    cases hitem : f item with
    | none => simp [hitem]
    | some b =>
      cases hrest : items.mapM f with
      | none => simpa [hitem, hrest] using ih.1 hrest
      | some rest => simpa [hitem, hrest] using ih

end Items

/-! ## Numbers cut off at the point -/

/-- A number without its fraction: it is rounded towards zero. -/
def cutOff (q : ℚ) : Int :=
  if 0 ≤ q then ⌊q⌋ else ⌈q⌉

theorem cutOff_intCast (n : Int) : cutOff n = n := by
  unfold cutOff
  split <;> simp

theorem cutOff_of_den {q : ℚ} (h : q.den = 1) : cutOff q = q.num := by
  have hq : ((q.num : Int) : ℚ) = q := Rat.coe_int_num_of_den_eq_one h
  calc cutOff q = cutOff (q.num : Int) := by rw [hq]
    _ = q.num := cutOff_intCast q.num

theorem le_cutOff_iff {q : ℚ} {n : Int} (hn : n ≤ 0) : n ≤ cutOff q ↔ (n : ℚ) - 1 < q := by
  have hn' : (n : ℚ) ≤ 0 := by exact_mod_cast hn
  unfold cutOff
  split
  · rename_i hq
    constructor
    · intro _
      linarith
    · intro _
      exact le_trans hn (Int.floor_nonneg.mpr hq)
  · rw [Int.le_ceil_iff]

theorem cutOff_lt_iff {q : ℚ} {n : Int} (hn : 0 < n) : cutOff q < n ↔ q < n := by
  have hn' : (0 : ℚ) < n := by exact_mod_cast hn
  unfold cutOff
  split
  · exact Int.floor_lt
  · rename_i hq
    constructor
    · intro _
      linarith
    · intro _
      have hceil : ⌈q⌉ ≤ 0 := Int.ceil_le.mpr (by push_cast; linarith)
      omega

theorem cutOff_nonneg_iff {q : ℚ} : 0 ≤ cutOff q ↔ -1 < q := by
  simpa using le_cutOff_iff (q := q) (le_refl (0 : Int))

end Trees
