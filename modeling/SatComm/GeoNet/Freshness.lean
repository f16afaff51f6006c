import SatComm.Runs.Along
import SatComm.GeoNet.LocationTable

/-!
# How fresh a position is

Clause C.2 of the standard orders time stamps on a ring of `2 ^ 32`: the newer of two lies less
than half the ring ahead. The comparison in `LocationTable::Update` (`movesOn`) looks at the
distance without its direction. So it agrees with the ring only while the time stamps of an
address do not decrease, and exactly opposite on the ring, where both keep the old one.
-/

namespace SatComm.GeoNet

/-- `new` comes after `old` on the ring of 32-bit numbers. -/
def Newer (new old : BitVec 32) : Prop := 0 < (new - old).toNat ∧ (new - old).toNat < 2 ^ 31

instance (new old : BitVec 32) : Decidable (Newer new old) :=
  inferInstanceAs (Decidable (_ ∧ _))

theorem toNat_sub_of_le {new old : BitVec 32} (h : old.toNat ≤ new.toNat) :
    (new - old).toNat = new.toNat - old.toNat := by
  rw [BitVec.toNat_sub]
  omega

theorem toNat_sub_of_lt {new old : BitVec 32} (h : new.toNat < old.toNat) :
    (new - old).toNat = new.toNat + 2 ^ 32 - old.toNat := by
  rw [BitVec.toNat_sub]
  omega

theorem movesOn_iff (new old : Nat) :
    movesOn new old = true ↔
      (old < new ∧ new - old < 2 ^ 31) ∨ (new < old ∧ old - new < 2 ^ 31) := by
  simp only [movesOn, Bool.or_eq_true, Bool.and_eq_true, decide_eq_true_eq]
  omega

/-- When the comparison of the source is the one of the ring. -/
theorem movesOn_iff_newer_iff (new old : BitVec 32) :
    (movesOn new.toNat old.toNat = true ↔ Newer new old) ↔
      old.toNat ≤ new.toNat ∨ old.toNat = new.toNat + 2 ^ 31 := by
  have hnew := new.isLt
  have hold := old.isLt
  rw [movesOn_iff, Newer]
  by_cases h : old.toNat ≤ new.toNat
  · rw [toNat_sub_of_le h]
    omega
  · rw [toNat_sub_of_lt (by omega)]
    omega

/-! ## Calls of `Update` -/

/-- A call of `Update` for a source position vector, with what it finds in clock and memory. -/
structure UpdateCall where
  now : Nat
  raw : Raw
  soPv : Lpv
deriving DecidableEq, Repr

def callUpdate (lifeTime : Nat) (t : Table) (u : UpdateCall) : Table :=
  update lifeTime t u.now u.raw u.soPv

section freshness

variable (lifeTime : Nat) (mid : Mid)

/-- While the entry of `mid` stays, it holds the position vector received exactly if that is
newer than the one it held. -/
def StaysFresh (t : Table) (u : UpdateCall) : Prop :=
  ∀ e e', t.entries mid = some e → (callUpdate lifeTime t u).entries mid = some e' →
    (callUpdate lifeTime t u).erased mid = t.erased mid →
    e'.lpv = if u.soPv.gnAddr.mid = mid ∧ Newer u.soPv.tst e.lpv.tst then u.soPv else e.lpv

/-- A call for `mid` that finds its entry brings a time stamp that is not below the one there,
as a number, or exactly half the ring away. -/
def InOrder (t : Table) (u : UpdateCall) : Prop :=
  u.soPv.gnAddr.mid = mid → ∀ e, (find lifeTime t u.now mid).1 = some e →
    e.lpv.tst.toNat ≤ u.soPv.tst.toNat ∨ e.lpv.tst.toNat = u.soPv.tst.toNat + 2 ^ 31

theorem ne_of_movesOn {new old : Nat} (h : movesOn new old = true) : new ≠ old := by
  rw [movesOn_iff] at h
  omega

theorem ne_of_newer {new old : BitVec 32} (h : Newer new old) : new ≠ old := by
  rintro rfl
  simp [Newer] at h

/-- Two choices between the same vectors agree only if they choose alike. -/
theorem moved_lpv_eq_iff (e : LocTableEntry) (lpv : Lpv) :
    (e.moved lpv).lpv = (if Newer lpv.tst e.lpv.tst then lpv else e.lpv) ↔
      (movesOn lpv.tst.toNat e.lpv.tst.toNat = true ↔ Newer lpv.tst e.lpv.tst) := by
  unfold LocTableEntry.moved
  by_cases hm : movesOn lpv.tst.toNat e.lpv.tst.toNat = true
  · by_cases hn : Newer lpv.tst e.lpv.tst
    · simp [hm, hn]
    · have hne : lpv ≠ e.lpv := fun h => ne_of_movesOn hm (by rw [h])
      simp [hm, hn, hne]
  · by_cases hn : Newer lpv.tst e.lpv.tst
    · have hne : e.lpv ≠ lpv := fun h => ne_of_newer hn (by rw [h])
      simp [hm, hn, hne]
    · simp [hm, hn]

theorem staysFresh_iff_inOrder (t : Table) (u : UpdateCall) :
    StaysFresh lifeTime mid t u ↔ InOrder lifeTime mid t u := by
  unfold StaysFresh InOrder callUpdate
  by_cases hmid : u.soPv.gnAddr.mid = mid
  · subst hmid
    obtain ⟨he, h⟩ | ⟨e, he, ⟨hold, h⟩ | ⟨hnew, h⟩⟩ := update_cases lifeTime t u.now u.raw u.soPv
    · rw [find_of_none he]
      simp [he]
    · rw [h, find_of_some he, if_pos hold]
      simp [Table.put, Table.erase]
    · rw [h, find_of_some he, if_neg (by simp [hnew])]
      have hiff := (moved_lpv_eq_iff e u.soPv).trans (movesOn_iff_newer_iff u.soPv.tst e.lpv.tst)
      constructor
      · rintro hfresh - e' he'
        rw [← Option.some.inj he', ← hiff]
        simpa using hfresh e (e.moved u.soPv) he (by simp [Table.put]) rfl
      · rintro horder e' e'' he' he'' -
        rw [he, Option.some.injEq] at he'
        simp only [Table.put, Function.update_self, Option.some.injEq] at he''
        subst he' he''
        simpa using hiff.mpr (horder rfl e rfl)
  · have hsame : (update lifeTime t u.now u.raw u.soPv).entries mid = t.entries mid := by
      obtain ⟨-, h⟩ | ⟨e, -, ⟨-, h⟩ | ⟨-, h⟩⟩ := update_cases lifeTime t u.now u.raw u.soPv
      all_goals
        rw [h]
        simp [Table.put, Table.erase, Ne.symm hmid]
    rw [hsame]
    refine ⟨fun _ h => absurd h hmid, fun _ e e' he he' _ => ?_⟩
    rw [he, Option.some.injEq] at he'
    rw [← he', if_neg fun h => hmid h.1]

/-- The entry of `mid` stays fresh through a sequence of calls exactly if they come in order. -/
theorem staysFresh_along_iff (t : Table) (us : List UpdateCall) :
    Runs.Along (callUpdate lifeTime) (StaysFresh lifeTime mid) t us ↔
      Runs.Along (callUpdate lifeTime) (InOrder lifeTime mid) t us :=
  Runs.along_congr (fun _ => True) (fun t u _ => staysFresh_iff_inOrder lifeTime mid t u)
    (fun _ _ _ _ => trivial) us trivial

end freshness

/-- Two vectors of one station, the later one received first: the earlier one replaces it. -/
theorem older_position_replaces_newer :
    ¬ Runs.Along (callUpdate 20) (StaysFresh 20 2) Table.empty
      [⟨1000, ⟨false, 0⟩, ⟨⟨0, 5, 2⟩, 900, 7, 7, 1, 0, 0⟩⟩,
        ⟨1000, ⟨false, 0⟩, ⟨⟨0, 5, 2⟩, 800, 8, 8, 1, 0, 0⟩⟩] := by
  intro h
  exact absurd (h.2.1 _ _ rfl rfl rfl) (by decide)

end SatComm.GeoNet
