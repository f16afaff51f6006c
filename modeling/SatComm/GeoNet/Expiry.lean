import Mathlib.Order.Interval.Set.UnorderedInterval
import SatComm.GeoNet.LocationTable

/-!
# When entries expire

`LocationTable::Find` and `LocationTable::RefreshTask` both drop an entry whose age exceeds the
lifetime. The lifetime is in seconds and the age in milliseconds. The refresh multiplies by a
thousand and the lookup by a million, so it returns entries that a refresh would drop, or, where
the products wrap around, drops entries that a refresh would keep.
-/

namespace SatComm.GeoNet

/-- The bound of `RefreshTask` on 32-bit unsigned numbers. A negative lifetime stands for itself
plus `2 ^ 32`. -/
def refreshBound (lifeTime : Nat) : Nat := lifeTime * 1000 % 2 ^ 32

/-- The bound of `Find`. -/
def findBound (lifeTime : Nat) : Nat := lifeTime * 1000000 % 2 ^ 32

def LocTableEntry.age (e : LocTableEntry) (now : Nat) : Nat :=
  (now + 2 ^ 32 - e.lpv.tst.toNat) % 2 ^ 32

/-- A lookup returns the entries that a refresh at the same time keeps, and no others. -/
def Agrees (lifeTime : Nat) (t : Table) (now : Nat) : Prop :=
  ∀ mid, (find lifeTime t now mid).1 = (refresh lifeTime t fun _ => now).entries mid

variable {lifeTime now : Nat} {t : Table} {mid : Mid} {e : LocTableEntry}

theorem find_of_entry (h : t.entries mid = some e) :
    (find lifeTime t now mid).1 = if findBound lifeTime < e.age now then none else some e := by
  unfold find
  rw [Table.lookup_eq, h]
  by_cases hold : findBound lifeTime < e.age now
  · rw [if_pos hold]
    exact congrArg Prod.fst (if_pos (decide_eq_true hold))
  · rw [if_neg hold]
    exact congrArg Prod.fst (if_neg (Bool.eq_false_iff.mp (decide_eq_false hold)))

theorem refresh_of_entry (h : t.entries mid = some e) :
    (refresh lifeTime t fun _ => now).entries mid =
      if refreshBound lifeTime < e.age now then none else some e := by
  have houtlived : outlived lifeTime t (fun _ => now) mid =
      decide (refreshBound lifeTime < e.age now) := by
    rw [outlived, Table.lookup_eq, h]
    rfl
  unfold refresh
  simp only [houtlived, h, decide_eq_true_eq]

theorem find_eq_refresh_of_none (h : t.entries mid = none) :
    (find lifeTime t now mid).1 = (refresh lifeTime t fun _ => now).entries mid := by
  simp [find, refresh, h]

theorem find_eq_refresh_of_entry_iff (h : t.entries mid = some e) :
    (find lifeTime t now mid).1 = (refresh lifeTime t fun _ => now).entries mid ↔
      e.age now ∉ Set.uIoc (refreshBound lifeTime) (findBound lifeTime) := by
  rw [find_of_entry h, refresh_of_entry h, Set.mem_uIoc]
  split_ifs <;> simp <;> omega

/-- The lookup agrees with the refresh exactly where no entry has an age between the two bounds. -/
theorem agrees_iff (lifeTime : Nat) (t : Table) (now : Nat) :
    Agrees lifeTime t now ↔
      ∀ mid e, t.entries mid = some e →
        e.age now ∉ Set.uIoc (refreshBound lifeTime) (findBound lifeTime) := by
  constructor
  · intro hagrees mid e he
    exact (find_eq_refresh_of_entry_iff he).mp (hagrees mid)
  · intro hages mid
    cases he : t.entries mid with
    | none => exact find_eq_refresh_of_none he
    | some e => exact (find_eq_refresh_of_entry_iff he).mpr (hages mid e he)

/-! ## Lifetimes -/

/-- An entry with the time stamp zero. -/
def stampedZero : LocTableEntry :=
  ⟨⟨0, 0, 0⟩, ⟨⟨0, 0, 0⟩, 0, 0, 0, 0, 0, 0⟩, false, false, true, []⟩

def tableOfZero : Table := Table.empty.put 0 stampedZero

theorem entries_tableOfZero : tableOfZero.entries 0 = some stampedZero := by
  simp [tableOfZero, Table.put]

/-- With the default lifetime of 20 s, an entry that is 30 s old is looked up. -/
theorem not_agrees_default :
    ¬∀ (lifeTime : Nat) (t : Table) (now : Nat), Agrees lifeTime t now := by
  intro h
  have hlooked := h 20 tableOfZero 30000 0
  rw [find_of_entry entries_tableOfZero, refresh_of_entry entries_tableOfZero,
    if_neg (by decide), if_pos (by decide)] at hlooked
  cases hlooked

end SatComm.GeoNet
