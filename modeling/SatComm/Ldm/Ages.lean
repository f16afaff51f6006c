import SatComm.Ldm.Ownership

/-!
# The age of a message

A message carries the millisecond of the minute in which it was sent, and the receiver adds the
minute: the current one, or the one before where the millisecond is still to come. The field has 16
bits. A value of more than a minute can give a time stamp in the future, and the garbage collector
takes the difference of such a time stamp and its clock for a great age.
-/

namespace SatComm.Ldm

/-- `calc_timestamp_from_secmark`, with a clock that reads `millis`. -/
def calcTimestampFromSecmark (millis : BitVec 64) (secMarkMs : BitVec 16) : BitVec 64 :=
  let min := millis / 60000
  let rem := millis % 60000
  let secMark := secMarkMs.setWidth 64
  if secMark ≤ rem then min * 60000 + secMark else (min - 1) * 60000 + secMark

/-! ## What a pass collects -/

/-- A pass at any time from `now` on collects an entry with this time stamp exactly where the time
since then exceeds the threshold. -/
def CollectsByAge (now tst : BitVec 64) : Prop :=
  ∀ t, now ≤ t → ∀ s : Ldm, Assoc.Sorted s.bsmIdIndexMap → ∀ id slot,
    Assoc.find s.bsmIdIndexMap id = some slot → slot ≠ dirtyData →
      s.bsmContents[slot]? = some (some tst) → ∀ timeThreshold clock, clock id = t →
        (Assoc.find (s.gbCollector timeThreshold clock).bsmIdIndexMap id = some dirtyData ↔
          (timeThreshold.toNat * 10000 : Int) < t.toNat - tst.toNat)

/-- The time stamp of a message is not later than its reception, and the message is collected by
its age. -/
structure Timely (now : BitVec 64) (secMarkMs : BitVec 16) : Prop where
  notLater : calcTimestampFromSecmark now secMarkMs ≤ now
  collects : CollectsByAge now (calcTimestampFromSecmark now secMarkMs)

/-- The millisecond has come in the current minute, or it came no more than a minute ago in the one
before; and if there is none before, it counts into the current one. -/
def Recent (now : BitVec 64) (secMarkMs : BitVec 16) : Prop :=
  secMarkMs.toNat ≤ now.toNat % 60000 ∨
    (secMarkMs.toNat ≤ 60000 + now.toNat % 60000 ∧ (60000 ≤ now.toNat ∨ 60000 ≤ secMarkMs.toNat))

/-! ## The garbage collector -/

variable {s : Ldm} {timeThreshold : BitVec 8} {clock : VehicleId → BitVec 64}

theorem contents_collect (element : VehicleId × Nat) :
    (collect timeThreshold clock s element).bsmContents = s.bsmContents := by
  unfold collect
  split <;> rfl

theorem isOld_congr {s' : Ldm} (h : s'.bsmContents = s.bsmContents) (now : BitVec 64)
    (slot : Nat) : s'.isOld timeThreshold now slot = s.isOld timeThreshold now slot := by
  rw [isOld, isOld, h]

theorem find_foldl_collect_of_not_mem {elements : List (VehicleId × Nat)} {id : VehicleId}
    (h : id ∉ Assoc.keys elements) :
    Assoc.find (elements.foldl (collect timeThreshold clock) s).bsmIdIndexMap id =
      Assoc.find s.bsmIdIndexMap id := by
  induction elements generalizing s with
  | nil => rfl
  | cons e elements ih =>
    rw [Assoc.keys, List.map_cons, List.mem_cons, not_or] at h
    rw [List.foldl_cons, ih h.2, find_collect_of_ne timeThreshold clock h.1]

theorem find_foldl_collect {elements : List (VehicleId × Nat)} {id : VehicleId} {slot : Nat}
    (hdistinct : Assoc.Sorted elements) (hmem : (id, slot) ∈ elements)
    (hfind : Assoc.find s.bsmIdIndexMap id = some slot) :
    Assoc.find (elements.foldl (collect timeThreshold clock) s).bsmIdIndexMap id =
      some (if s.isOld timeThreshold (clock id) slot then dirtyData else slot) := by
  induction elements generalizing s with
  | nil => cases hmem
  | cons e elements ih =>
    obtain ⟨he, hdistinct⟩ := List.pairwise_cons.mp hdistinct
    rw [List.foldl_cons]
    rcases List.mem_cons.mp hmem with rfl | hmem
    · have hnot : id ∉ Assoc.keys elements := by
        intro hid
        obtain ⟨e', he', hkey⟩ := List.mem_map.mp hid
        exact absurd hkey (he e' he').ne'
      rw [find_foldl_collect_of_not_mem hnot, collect]
      split
      · exact Assoc.find_assign_self hfind dirtyData
      · exact hfind
    · have hne : id ≠ e.1 := (he _ hmem).ne'
      rw [ih hdistinct hmem (by rw [find_collect_of_ne timeThreshold clock hne, hfind]),
        isOld_congr (contents_collect e)]

/-- A pass collects the entry of a vehicle or leaves it alone. -/
theorem find_gbCollector {id : VehicleId} {slot : Nat} (hm : Assoc.Sorted s.bsmIdIndexMap)
    (hfind : Assoc.find s.bsmIdIndexMap id = some slot) :
    Assoc.find (s.gbCollector timeThreshold clock).bsmIdIndexMap id =
      some (if s.isOld timeThreshold (clock id) slot then dirtyData else slot) :=
  find_foldl_collect hm (Assoc.mem_of_find hfind) hfind

/-- A time stamp that is not in the future has the age that the collector computes. -/
theorem collectsByAge_of_le {now tst : BitVec 64} (h : tst ≤ now) : CollectsByAge now tst := by
  intro t ht s hm id slot hfind hslot htst timeThreshold clock hclock
  have hle : tst.toNat ≤ t.toNat := Nat.le_trans h ht
  have hdif : (t - tst).toNat = t.toNat - tst.toNat := BitVec.toNat_sub_of_le hle
  rw [find_gbCollector hm hfind, isOld, htst, hclock]
  simp only [hdif, bne_iff_ne.mpr hslot, Bool.true_and]
  split
  · rename_i hold
    simp only [decide_eq_true_eq] at hold
    refine iff_of_true rfl ?_
    omega
  · rename_i hold
    simp only [decide_eq_true_eq] at hold
    refine iff_of_false (fun heq => hslot (Option.some.inj heq)) ?_
    omega

/-- A millisecond that has come counts into the current minute. -/
theorem toNat_calcTimestamp_of_le {now : BitVec 64} {secMarkMs : BitVec 16}
    (h : secMarkMs.toNat ≤ now.toNat % 60000) :
    (calcTimestampFromSecmark now secMarkMs).toNat =
      now.toNat / 60000 * 60000 + secMarkMs.toNat := by
  have hnow := now.isLt
  have hmark : (secMarkMs.setWidth 64).toNat = secMarkMs.toNat :=
    BitVec.toNat_setWidth_of_le (by decide)
  have hle : secMarkMs.setWidth 64 ≤ now % 60000 := by
    rw [BitVec.le_def, hmark]
    exact h
  have hminute : (60000 : BitVec 64).toNat = 60000 := by decide
  have hmin : (now / 60000).toNat = now.toNat / 60000 := by rw [BitVec.toNat_udiv, hminute]
  have hcalc : calcTimestampFromSecmark now secMarkMs =
      now / 60000 * 60000 + secMarkMs.setWidth 64 := if_pos hle
  rw [hcalc, BitVec.toNat_add, BitVec.toNat_mul, hmark, hmin, hminute]
  omega

/-- Another counts into the one before, and wraps around zero where there is none. -/
theorem toNat_calcTimestamp_of_lt {now : BitVec 64} {secMarkMs : BitVec 16}
    (h : now.toNat % 60000 < secMarkMs.toNat) :
    (calcTimestampFromSecmark now secMarkMs).toNat =
      if 60000 ≤ now.toNat then (now.toNat / 60000 - 1) * 60000 + secMarkMs.toNat
      else (2 ^ 64 - 60000 + secMarkMs.toNat) % 2 ^ 64 := by
  have hnow := now.isLt
  have hmark : (secMarkMs.setWidth 64).toNat = secMarkMs.toNat :=
    BitVec.toNat_setWidth_of_le (by decide)
  have hsec := secMarkMs.isLt
  have hle : ¬ secMarkMs.setWidth 64 ≤ now % 60000 := by
    rw [BitVec.le_def, hmark, not_le]
    exact h
  have hminute : (60000 : BitVec 64).toNat = 60000 := by decide
  have hmin : (now / 60000).toNat = now.toNat / 60000 := by rw [BitVec.toNat_udiv, hminute]
  have hone : (1 : BitVec 64).toNat = 1 := by decide
  have hcalc : calcTimestampFromSecmark now secMarkMs =
      (now / 60000 - 1) * 60000 + secMarkMs.setWidth 64 := if_neg hle
  rw [hcalc, BitVec.toNat_add, BitVec.toNat_mul, BitVec.toNat_sub, hmark, hmin, hminute, hone]
  split
  · have hbefore : (2 ^ 64 - 1 + now.toNat / 60000) % 2 ^ 64 = now.toNat / 60000 - 1 := by
      omega
    rw [hbefore]
    omega
  · have hzero : now.toNat / 60000 = 0 := by omega
    rw [hzero]
    omega

theorem timestamp_le_iff (now : BitVec 64) (secMarkMs : BitVec 16) :
    calcTimestampFromSecmark now secMarkMs ≤ now ↔ Recent now secMarkMs := by
  have hsec := secMarkMs.isLt
  rw [BitVec.le_def, Recent]
  rcases Nat.lt_or_ge (now.toNat % 60000) secMarkMs.toNat with h | h
  · rw [toNat_calcTimestamp_of_lt h]
    split <;> omega
  · rw [toNat_calcTimestamp_of_le h]
    omega

/-- The time stamp of a message is truthful exactly where its millisecond is recent. -/
theorem timely_iff (now : BitVec 64) (secMarkMs : BitVec 16) :
    Timely now secMarkMs ↔ Recent now secMarkMs := by
  rw [← timestamp_le_iff]
  exact ⟨Timely.notLater, fun h => ⟨h, collectsByAge_of_le h⟩⟩

/-- 65535 stands for an unavailable millisecond. At 10 ms after a full minute it counts into the
minute before, and the time stamp lies 5525 ms ahead. -/
theorem not_timely_unavailable : ¬ Timely 120010 65535 := by
  intro h
  exact absurd h.notLater (by decide)

end SatComm.Ldm
