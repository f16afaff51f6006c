import SatComm.Ldm.Ownership
import SatComm.Runs.Maps

/-!
# Counting lost messages

Before a message is installed, `filterBsm` compares it with the last one of its vehicle. Messages
are numbered modulo 128, and a difference above one says that some were lost. `bsmPacketsLost` is
raised by the difference and not by the number of messages between the two, and a difference across
the wrap of the numbers, or of exactly 127, is not counted.
-/

namespace SatComm.Ldm

/-- The fields of a message that the filter reads. -/
structure Bsm where
  id : VehicleId
  msgCount : BitVec 32
  timestampMs : BitVec 64
deriving DecidableEq, Repr

/-- A map with what the filter knows. `ids` and `msgCounts` are fields of each slot's message. -/
structure TunnelLdm extends Ldm where
  ids : Nat → VehicleId
  msgCounts : Nat → BitVec 32
  bsmPacketsLost : Assoc.Map VehicleId (BitVec 32)
  maliciousIds : List VehicleId
  packeLossThresh : BitVec 32
  ageThresh : BitVec 32
  distanceThresh : BitVec 32
  positionCertaintyThresh : BitVec 32

namespace TunnelLdm

/-! ## The filter -/

/-- A slot that is read has a message. -/
def timestampMs (s : TunnelLdm) (slot : Nat) : BitVec 64 := s.bsmContents[slot]?.join.getD 0

/-- `bsmPacketsLost[id]`. -/
def lost (s : TunnelLdm) (id : VehicleId) : BitVec 32 := (s.bsmPacketsLost.get? id).getD 0

def countLost (s : TunnelLdm) (id : VehicleId) (packetDif : BitVec 32) : TunnelLdm :=
  if 1 < packetDif ∧ packetDif < 127 then
    match s.bsmPacketsLost.get? id with
    | none => { s with bsmPacketsLost := s.bsmPacketsLost.set id packetDif }
    | some lost => { s with bsmPacketsLost := s.bsmPacketsLost.set id (lost + packetDif) }
  else s

/-- The comparison of the message in a slot with the previous one of its vehicle. -/
def comparePrev (s : TunnelLdm) (index i : Nat) : TunnelLdm :=
  let id := s.ids index
  let packetDif := s.msgCounts index - s.msgCounts i
  let s' :=
    if s.timestampMs index = s.timestampMs i then
      { s with maliciousIds := s.maliciousIds ++ [id] }
    else s
  s'.countLost id packetDif

/-- The age that the filter uses, and the state after the comparison. -/
def checkPrev (s : TunnelLdm) (index : Nat) : BitVec 32 × TunnelLdm :=
  match Assoc.find s.bsmIdIndexMap (s.ids index) with
  | some i =>
    if i ≠ dirtyData ∧ i ≠ invalidData then
      ((s.timestampMs i).setWidth 32, s.comparePrev index i)
    else (-1, s)
  | none => (0, s)

/-- `uncertain` says whether `tuncs[id]` exceeds `tuncThresh`. Distance and position certainty are
constants, every certificate is valid and every vehicle is trusted. -/
def filterBsm (s : TunnelLdm) (index : Nat) (uncertain : Bool) : Bool × TunnelLdm :=
  let id := s.ids index
  if id ∈ s.maliciousIds then (true, s)
  else
    let (age, s₁) := s.checkPrev index
    let lost := s₁.lost id
    -- reading `bsmPacketsLost[id]` creates the entry
    let s₂ := { s₁ with bsmPacketsLost := s₁.bsmPacketsLost.set id lost }
    if s₂.packeLossThresh < lost ∨ s₂.ageThresh < age ∨ 0 < s₂.distanceThresh ∨
        s₂.positionCertaintyThresh < 0 ∨ uncertain then
      (true, { s₂ with maliciousIds := s₂.maliciousIds ++ [id] })
    else (false, s₂)

/-- A message is decoded into a slot. -/
def decode (s : TunnelLdm) (slot : Nat) (bsm : Bsm) : TunnelLdm :=
  { s with
    toLdm := s.toLdm.store slot (some bsm.timestampMs)
    ids := Function.update s.ids slot bsm.id
    msgCounts := Function.update s.msgCounts slot bsm.msgCount }

/-- A message is decoded into a free slot, passed through the filter and installed. -/
def receive (s : TunnelLdm) (bsm : Bsm) (uncertain : Bool) : TunnelLdm :=
  let (slot, ldm) := s.toLdm.getFreeBsmSlotIdx
  let s₁ := decode { s with toLdm := ldm } slot bsm
  let (_, s₂) := s₁.filterBsm slot uncertain
  { s₂ with toLdm := s₂.toLdm.setIndex bsm.id slot none }

/-! ## Runs -/

/-- A message of the vehicle that arrives. -/
structure Reception where
  /-- How many of its messages were lost since the last one that arrived. -/
  missing : Fin 127
  timestampMs : BitVec 64
  uncertain : Bool
deriving DecidableEq, Repr

/-- The next message that arrives, after the one with this count. -/
def hear (id : VehicleId) (p : TunnelLdm × Fin 128) (r : Reception) : TunnelLdm × Fin 128 :=
  let count := p.2 + 1 + r.missing.castSucc
  (p.1.receive ⟨id, BitVec.ofNat 32 count, r.timestampMs⟩ r.uncertain, count)

def totalMissing (rs : List Reception) : Nat := (rs.map fun r => r.missing.val).sum

/-- After each message the number counted is the number of messages that are missing. -/
def Accounts (id : VehicleId) (p : TunnelLdm × Fin 128) (rs : List Reception) : Prop :=
  ∀ n, (((rs.take n).foldl (hear id) p).1.lost id).toNat = totalMissing (rs.take n)

/-- A map that has no message of the vehicle. -/
structure Unheard (id : VehicleId) extends TunnelLdm where
  sorted : Assoc.Sorted bsmIdIndexMap
  absent : Assoc.find bsmIdIndexMap id = none
  uncounted : bsmPacketsLost.get? id = none

/-- The constructor, and the thresholds that the application sets. -/
def Unheard.new (id : VehicleId) (size : BitVec 16)
    (packeLossThresh ageThresh distanceThresh positionCertaintyThresh : BitVec 32) : Unheard id where
  toLdm := Ldm.new size
  ids := fun _ => 0
  msgCounts := fun _ => 0
  bsmPacketsLost := Assoc.Map.empty
  maliciousIds := []
  packeLossThresh := packeLossThresh
  ageThresh := ageThresh
  distanceThresh := distanceThresh
  positionCertaintyThresh := positionCertaintyThresh
  sorted := List.Pairwise.nil
  absent := rfl
  uncounted := rfl

/-! ## What the filter counts -/

variable {s : TunnelLdm} {id : VehicleId} {slot : Nat}

/-- What a difference of message counts adds. -/
def counted (packetDif : BitVec 32) : BitVec 32 :=
  if 1 < packetDif ∧ packetDif < 127 then packetDif else 0

theorem lost_countLost (s : TunnelLdm) (id : VehicleId) (packetDif : BitVec 32) :
    (s.countLost id packetDif).lost id = s.lost id + counted packetDif := by
  unfold countLost counted
  split
  · cases h : s.bsmPacketsLost.get? id with
    | none => simp [lost, h]
    | some n => simp [lost, h]
  · simp

@[simp]
theorem toLdm_countLost (s : TunnelLdm) (id : VehicleId) (packetDif : BitVec 32) :
    (s.countLost id packetDif).toLdm = s.toLdm := by
  unfold countLost
  split
  · cases s.bsmPacketsLost.get? id <;> rfl
  · rfl

@[simp]
theorem msgCounts_countLost (s : TunnelLdm) (id : VehicleId) (packetDif : BitVec 32) :
    (s.countLost id packetDif).msgCounts = s.msgCounts := by
  unfold countLost
  split
  · cases s.bsmPacketsLost.get? id <;> rfl
  · rfl

theorem lost_comparePrev (s : TunnelLdm) (index i : Nat) :
    (s.comparePrev index i).lost (s.ids index) =
      s.lost (s.ids index) + counted (s.msgCounts index - s.msgCounts i) := by
  unfold comparePrev
  rw [lost_countLost]
  split <;> rfl

theorem toLdm_comparePrev (s : TunnelLdm) (index i : Nat) :
    (s.comparePrev index i).toLdm = s.toLdm := by
  unfold comparePrev
  rw [toLdm_countLost]
  split <;> rfl

theorem msgCounts_comparePrev (s : TunnelLdm) (index i : Nat) :
    (s.comparePrev index i).msgCounts = s.msgCounts := by
  unfold comparePrev
  rw [msgCounts_countLost]
  split <;> rfl

/-- The filter counts the difference to the message in the slot of the vehicle, or nothing. -/
theorem lost_checkPrev (s : TunnelLdm) (index : Nat) :
    (s.checkPrev index).2.lost (s.ids index) = s.lost (s.ids index) ∨
      ∃ i, Assoc.find s.bsmIdIndexMap (s.ids index) = some i ∧ i ≠ dirtyData ∧ i ≠ invalidData ∧
        (s.checkPrev index).2.lost (s.ids index) =
          s.lost (s.ids index) + counted (s.msgCounts index - s.msgCounts i) := by
  unfold checkPrev
  cases hfind : Assoc.find s.bsmIdIndexMap (s.ids index) with
  | none => exact Or.inl rfl
  | some i =>
    by_cases hi : i ≠ dirtyData ∧ i ≠ invalidData
    · refine Or.inr ⟨i, rfl, hi.1, hi.2, ?_⟩
      simp only [if_pos hi]
      exact lost_comparePrev s index i
    · simp only [if_neg hi]
      exact Or.inl trivial

theorem toLdm_checkPrev (s : TunnelLdm) (index : Nat) :
    (s.checkPrev index).2.toLdm = s.toLdm := by
  unfold checkPrev
  split
  · split
    · exact toLdm_comparePrev s index _
    · rfl
  · rfl

theorem msgCounts_checkPrev (s : TunnelLdm) (index : Nat) :
    (s.checkPrev index).2.msgCounts = s.msgCounts := by
  unfold checkPrev
  split
  · split
    · exact msgCounts_comparePrev s index _
    · rfl
  · rfl

/-- The filter does nothing, or it compares with the previous message and creates the entry of
`bsmPacketsLost`. -/
theorem filterBsm_cases (s : TunnelLdm) (index : Nat) (uncertain : Bool) :
    (s.filterBsm index uncertain).2 = s ∨
      ∃ ids, (s.filterBsm index uncertain).2 =
        { (s.checkPrev index).2 with
          bsmPacketsLost := (s.checkPrev index).2.bsmPacketsLost.set (s.ids index)
            ((s.checkPrev index).2.lost (s.ids index))
          maliciousIds := ids } := by
  unfold filterBsm
  by_cases hmem : s.ids index ∈ s.maliciousIds
  · exact Or.inl (by simp only [if_pos hmem])
  · right
    simp only [if_neg hmem]
    split
    · exact ⟨_, rfl⟩
    · exact ⟨_, rfl⟩

theorem toLdm_filterBsm (s : TunnelLdm) (index : Nat) (uncertain : Bool) :
    (s.filterBsm index uncertain).2.toLdm = s.toLdm := by
  rcases filterBsm_cases s index uncertain with h | ⟨ids, h⟩
  · rw [h]
  · rw [h]
    exact toLdm_checkPrev s index

theorem msgCounts_filterBsm (s : TunnelLdm) (index : Nat) (uncertain : Bool) :
    (s.filterBsm index uncertain).2.msgCounts = s.msgCounts := by
  rcases filterBsm_cases s index uncertain with h | ⟨ids, h⟩
  · rw [h]
  · rw [h]
    exact msgCounts_checkPrev s index

theorem lost_filterBsm (s : TunnelLdm) (index : Nat) (uncertain : Bool) :
    (s.filterBsm index uncertain).2.lost (s.ids index) = s.lost (s.ids index) ∨
      ∃ i, Assoc.find s.bsmIdIndexMap (s.ids index) = some i ∧ i ≠ dirtyData ∧ i ≠ invalidData ∧
        (s.filterBsm index uncertain).2.lost (s.ids index) =
          s.lost (s.ids index) + counted (s.msgCounts index - s.msgCounts i) := by
  rcases filterBsm_cases s index uncertain with h | ⟨ids, h⟩
  · exact Or.inl (by rw [h])
  · have hlost : (s.filterBsm index uncertain).2.lost (s.ids index) =
        (s.checkPrev index).2.lost (s.ids index) := by
      rw [h, lost, Assoc.Map.get?_set_self, Option.getD_some]
    rw [hlost]
    exact lost_checkPrev s index

/-! ## A reception -/

theorem getFreeBsmSlotIdx_map (m : Ldm) :
    m.getFreeBsmSlotIdx.2.bsmIdIndexMap = m.bsmIdIndexMap := by
  unfold getFreeBsmSlotIdx
  split <;> rfl

/-- After installing, the vehicle has the new slot, or it is stuck with the one that says
"absent". -/
theorem find_setIndex {m : Ldm} (hm : Assoc.Sorted m.bsmIdIndexMap) (id : VehicleId) (slot : Nat)
    (mc : Option (BitVec 64)) :
    Assoc.find (m.setIndex id slot mc).bsmIdIndexMap id = some slot ∨
      Assoc.find (m.setIndex id slot mc).bsmIdIndexMap id = some invalidData := by
  unfold setIndex
  simp only [store_map]
  cases hfind : Assoc.find m.bsmIdIndexMap id with
  | none =>
    have hused : m.getIndex id = invalidData := by simp [getIndex, hfind]
    rw [if_neg (by simp [hused]), if_neg (by rw [hused]; decide)]
    exact Or.inl (Assoc.find_insert_self hfind slot)
  | some old =>
    have hused : m.getIndex id = old := by simp [getIndex, hfind]
    rw [hused]
    split
    · exact Or.inl (Assoc.find_assign_self hfind slot)
    · rename_i hlive
      split
      · exact Or.inl (Assoc.find_assign_self hfind slot)
      · rename_i hdirty
        have hold : old = invalidData := by
          by_contra hne
          exact hlive ⟨hne, hdirty⟩
        right
        rw [Assoc.insert_of_find hm hfind, hfind, hold]

/-- What the vehicle's slot holds once its last message, with this count, has been installed. -/
structure Tracks (s : TunnelLdm) (id : VehicleId) (count : BitVec 32) : Prop where
  sorted : Assoc.Sorted s.bsmIdIndexMap
  uncounted : s.lost id = 0
  count : ∀ i, Assoc.find s.bsmIdIndexMap id = some i → i ≠ invalidData → s.msgCounts i = count

theorem counted_zero : counted 0 = 0 := by decide

/-- The state in which the filter looks at a new message. -/
def decoded (s : TunnelLdm) (bsm : Bsm) : TunnelLdm :=
  decode { s with toLdm := s.toLdm.getFreeBsmSlotIdx.2 } s.toLdm.getFreeBsmSlotIdx.1 bsm

theorem decoded_map (s : TunnelLdm) (bsm : Bsm) :
    (s.decoded bsm).bsmIdIndexMap = s.bsmIdIndexMap := by
  rw [decoded, decode, store_map]
  exact getFreeBsmSlotIdx_map s.toLdm

/-- A reception counts the difference to the message in the slot of the vehicle, or nothing. -/
theorem lost_receive (s : TunnelLdm) (bsm : Bsm) (uncertain : Bool) :
    (s.receive bsm uncertain).lost bsm.id = s.lost bsm.id ∨
      ∃ i, Assoc.find s.bsmIdIndexMap bsm.id = some i ∧ i ≠ invalidData ∧
        (s.receive bsm uncertain).lost bsm.id =
          s.lost bsm.id + counted (bsm.msgCount - (s.decoded bsm).msgCounts i) := by
  have hid : (s.decoded bsm).ids s.toLdm.getFreeBsmSlotIdx.1 = bsm.id := Function.update_self ..
  have hcount : (s.decoded bsm).msgCounts s.toLdm.getFreeBsmSlotIdx.1 = bsm.msgCount :=
    Function.update_self ..
  have hfilter := lost_filterBsm (s.decoded bsm) s.toLdm.getFreeBsmSlotIdx.1 uncertain
  rw [hid, hcount, decoded_map] at hfilter
  rcases hfilter with h | ⟨i, hfind, -, hi, h⟩
  · exact Or.inl h
  · exact Or.inr ⟨i, hfind, hi, h⟩

/-- The message that the vehicle's slot holds is the last one, or the new one itself where the
slot was free as well. -/
theorem lost_receive_of_tracks {count : BitVec 32} (bsm : Bsm) (h : Tracks s bsm.id count)
    (uncertain : Bool) :
    (s.receive bsm uncertain).lost bsm.id = 0 ∨
      (s.receive bsm uncertain).lost bsm.id = counted (bsm.msgCount - count) := by
  rcases lost_receive s bsm uncertain with hlost | ⟨i, hfind, hi, hlost⟩
  · exact Or.inl (hlost.trans h.uncounted)
  · rw [hlost, h.uncounted, zero_add]
    by_cases hslot : i = s.toLdm.getFreeBsmSlotIdx.1
    · have hcount : (s.decoded bsm).msgCounts i = bsm.msgCount := by
        rw [hslot]
        exact Function.update_self ..
      rw [hcount, BitVec.sub_self]
      exact Or.inl counted_zero
    · have hcount : (s.decoded bsm).msgCounts i = count := by
        rw [← h.count i hfind hi]
        exact Function.update_of_ne hslot ..
      rw [hcount]
      exact Or.inr rfl

/-- After a reception that counts nothing the vehicle's slot holds the new message. -/
theorem tracks_receive {bsm : Bsm} {uncertain : Bool} (hm : Assoc.Sorted s.bsmIdIndexMap)
    (hzero : (s.receive bsm uncertain).lost bsm.id = 0) :
    Tracks (s.receive bsm uncertain) bsm.id bsm.msgCount := by
  have hmap : (((s.decoded bsm).filterBsm s.toLdm.getFreeBsmSlotIdx.1 uncertain).2).bsmIdIndexMap =
      s.bsmIdIndexMap := by
    rw [toLdm_filterBsm, decoded_map]
  have hsorted : Assoc.Sorted
      (((s.decoded bsm).filterBsm s.toLdm.getFreeBsmSlotIdx.1 uncertain).2).bsmIdIndexMap := by
    rw [hmap]
    exact hm
  refine ⟨sorted_setIndex hsorted _ _ _, hzero, ?_⟩
  intro i hfind hi
  rcases find_setIndex hsorted bsm.id s.toLdm.getFreeBsmSlotIdx.1 none with hslot | hslot
  · have heq : i = s.toLdm.getFreeBsmSlotIdx.1 := Option.some.inj (hfind.symm.trans hslot)
    have hcounts : (s.receive bsm uncertain).msgCounts = (s.decoded bsm).msgCounts :=
      msgCounts_filterBsm ..
    rw [hcounts, heq]
    exact Function.update_self ..
  · exact absurd (Option.some.inj (hfind.symm.trans hslot)) hi

/-! ## Runs -/

/-- The difference is one more than the number of messages missing, and it wraps with the
message counts. -/
theorem toNat_packetDif (count : Fin 128) (missing : Fin 127) :
    (BitVec.ofNat 32 (count + 1 + missing.castSucc : Fin 128) - BitVec.ofNat 32 count).toNat =
      if count.val + 1 + missing.val < 128 then missing.val + 1
      else 2 ^ 32 - 127 + missing.val := by
  have hcount := count.isLt
  have hmissing := missing.isLt
  have hnext : (count + 1 + missing.castSucc : Fin 128).val =
      (count.val + 1 + missing.val) % 128 := by
    simp [Fin.val_add]
  rw [hnext, BitVec.toNat_sub, BitVec.toNat_ofNat, BitVec.toNat_ofNat]
  split <;> omega

theorem toNat_counted (packetDif : BitVec 32) :
    (counted packetDif).toNat =
      if 1 < packetDif.toNat ∧ packetDif.toNat < 127 then packetDif.toNat else 0 := by
  unfold counted
  simp only [BitVec.lt_def]
  split
  · rename_i h
    exact (if_pos h).symm
  · rename_i h
    exact (if_neg h).symm

/-- Two consecutive messages differ by one, or by -127, which is not counted. -/
theorem counted_of_none_missing (count : Fin 128) :
    counted (BitVec.ofNat 32 (count + 1 + (0 : Fin 127).castSucc : Fin 128) -
      BitVec.ofNat 32 count) = 0 := by
  have hzero : (0 : Fin 127).val = 0 := rfl
  apply BitVec.eq_of_toNat_eq
  rw [toNat_counted, toNat_packetDif, hzero]
  split
  · rfl
  · rfl

/-- Otherwise the number counted is one too many, or nothing. -/
theorem counted_ne_missing {missing : Fin 127} (h : missing ≠ 0) (count : Fin 128) :
    (counted (BitVec.ofNat 32 (count + 1 + missing.castSucc : Fin 128) -
      BitVec.ofNat 32 count)).toNat ≠ missing.val := by
  have hpos : 0 < missing.val := Fin.pos_iff_ne_zero.mpr h
  rw [toNat_counted, toNat_packetDif]
  split_ifs <;> omega

variable {count : Fin 128}

theorem lost_hear (h : Tracks s id (BitVec.ofNat 32 count)) (r : Reception) :
    (hear id (s, count) r).1.lost id = 0 ∨
      (hear id (s, count) r).1.lost id =
        counted (BitVec.ofNat 32 (count + 1 + r.missing.castSucc : Fin 128) -
          BitVec.ofNat 32 count) :=
  lost_receive_of_tracks ⟨id, _, r.timestampMs⟩ h r.uncertain

theorem tracks_hear (h : Tracks s id (BitVec.ofNat 32 count)) {r : Reception}
    (hnone : r.missing = 0) :
    Tracks (hear id (s, count) r).1 id (BitVec.ofNat 32 (hear id (s, count) r).2) := by
  refine tracks_receive h.sorted ?_
  rcases lost_hear h r with hlost | hlost
  · exact hlost
  · rw [hnone, counted_of_none_missing] at hlost
    exact hlost

theorem lost_hear_ne (h : Tracks s id (BitVec.ofNat 32 count)) {r : Reception}
    (hmissing : r.missing ≠ 0) : ((hear id (s, count) r).1.lost id).toNat ≠ r.missing.val := by
  have hpos : 0 < r.missing.val := Fin.pos_iff_ne_zero.mpr hmissing
  rcases lost_hear h r with hlost | hlost
  · rw [hlost]
    exact hpos.ne
  · rw [hlost]
    exact counted_ne_missing hmissing count

theorem accounts_cons {r : Reception} {rs : List Reception} (hzero : s.lost id = 0)
    (hnone : r.missing = 0) :
    Accounts id (s, count) (r :: rs) ↔ Accounts id (hear id (s, count) r) rs := by
  constructor
  · intro h n
    simpa [totalMissing, hnone] using h (n + 1)
  · intro h n
    cases n with
    | zero => simp [totalMissing, hzero]
    | succ n => simpa [totalMissing, hnone] using h n

/-- The first message after a loss shows it. -/
theorem accounts_iff_of_tracks {rs : List Reception} (h : Tracks s id (BitVec.ofNat 32 count)) :
    Accounts id (s, count) rs ↔ ∀ r ∈ rs, r.missing = 0 := by
  induction rs generalizing s count with
  | nil => simp [Accounts, totalMissing, h.uncounted]
  | cons r rs ih =>
    rw [List.forall_mem_cons]
    by_cases hnone : r.missing = 0
    · rw [accounts_cons h.uncounted hnone, and_iff_right hnone]
      exact ih (tracks_hear h hnone)
    · refine iff_of_false ?_ (fun hall => hnone hall.1)
      intro haccounts
      have hfirst := haccounts 1
      simp only [List.take_succ_cons, List.take_zero, List.foldl_cons, List.foldl_nil, totalMissing,
        List.map_cons, List.map_nil, List.sum_cons, List.sum_nil, Nat.add_zero] at hfirst
      exact lost_hear_ne h hnone hfirst

/-- From the first message of a vehicle on, its losses are counted right after every message
exactly when there are none. -/
theorem accounts_iff {id : VehicleId} (s : Unheard id) (count : Fin 128) (timestampMs : BitVec 64)
    (uncertain : Bool) (rs : List Reception) :
    Accounts id (s.receive ⟨id, BitVec.ofNat 32 count, timestampMs⟩ uncertain, count) rs ↔
      ∀ r ∈ rs, r.missing = 0 := by
  apply accounts_iff_of_tracks
  refine tracks_receive s.sorted ?_
  rcases lost_receive s.toTunnelLdm ⟨id, BitVec.ofNat 32 count, timestampMs⟩ uncertain with
    hlost | ⟨i, hfind, -⟩
  · rw [hlost, lost, s.uncounted, Option.getD_none]
  · rw [s.absent] at hfind
    cases hfind

/-- After message 5 comes message 7. One message is missing, and two are counted. -/
theorem not_accounts_one_missing :
    ¬ Accounts 9 ((Unheard.new 9 4 100 10000 0 0).receive ⟨9, BitVec.ofNat 32 (5 : Fin 128), 1000⟩
      false, 5) [⟨1, 1100, false⟩] := by
  intro h
  exact absurd (h 1) (by decide)

end TunnelLdm

end SatComm.Ldm
