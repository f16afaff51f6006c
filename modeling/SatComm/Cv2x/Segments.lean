import Mathlib.Data.List.TakeWhile
import Mathlib.Tactic.Common
import SatComm.Cv2x.MetaData

/-!
# Segments of meta data

The grammar of the meta data, and what the two scanners of the parser do with bytes that are of it
and with bytes that are not.
-/

namespace SatComm

namespace Cv2x

namespace MetaData

/-! ## The grammar -/

/-- A padding byte, or a value with its type and its length. -/
inductive Item
  | padding
  | tlv (t : Tlv) (value : List UInt8) (length_eq : value.length = t.len)
deriving DecidableEq

def Item.encode : Item → List UInt8
  | .padding => [tlvMdPaddingType]
  | .tlv t value _ => t.type :: UInt8.ofNat t.len :: value

def encodeItems (items : List Item) : List UInt8 := items.flatMap Item.encode

/-- The start marker, the subframe number in two bytes and the subchannel index. -/
def encodeHead (a b index : UInt8) : List UInt8 :=
  [tlvMdStartType, tlvMdSfnType, tlvMdSfnLen, a, b, tlvMdSubchIdxType, tlvMdSubchIdxLen, index]

structure Segment where
  sfnLow : UInt8
  sfnHigh : UInt8
  subChannelIndex : UInt8
  items : List Item
deriving DecidableEq

/-- What follows the head of a segment. -/
def encodeTail (items : List Item) (rest : List UInt8) : List UInt8 :=
  encodeItems items ++ tlvMdEndType :: rest

def Segment.encode (s : Segment) : List UInt8 :=
  encodeHead s.sfnLow s.sfnHigh s.subChannelIndex ++ encodeTail s.items []

def encodeAll (segments : List Segment) : List UInt8 := segments.flatMap Segment.encode

/-! ## The report of a segment -/

def RxPacketMetaDataReport.head (r : RxPacketMetaDataReport) (a b index : UInt8) :
    RxPacketMetaDataReport :=
  { r with
    sfn := load16 a b
    subChannelIndex := index
    metaDataMask := r.metaDataMask ∪ {.subframeNumber, .subchannelIndex} }

def RxPacketMetaDataReport.apply (r : RxPacketMetaDataReport) : Item → RxPacketMetaDataReport
  | .padding => r
  | .tlv t value _ => (r.set t value).getD r

/-- What a segment adds to a report. -/
def RxPacketMetaDataReport.add (r : RxPacketMetaDataReport) (s : Segment) :
    RxPacketMetaDataReport :=
  s.items.foldl RxPacketMetaDataReport.apply (r.head s.sfnLow s.sfnHigh s.subChannelIndex)

/-- The report of its own values. -/
def Segment.report (s : Segment) : RxPacketMetaDataReport := RxPacketMetaDataReport.zero.add s

section Scanners

variable {r : RxPacketMetaDataReport} {pl rest : List UInt8} {items : List Item} {fuel : ℕ}

theorem set_eq_some {t : Tlv} {value : List UInt8} (r : RxPacketMetaDataReport)
    (h : value.length = t.len) : r.set t value = some ((r.set t value).getD r) := by
  cases t with
  | dstId | sci | pktDelayEst =>
    match value, h with
    | [_, _, _, _], _ => rfl
  | rssi =>
    match value, h with
    | [_, _], _ => rfl
  | subchNum =>
    match value, h with
    | [_], _ => rfl

theorem ofType_type (t : Tlv) : Tlv.ofType t.type = some t := by cases t <;> decide

theorem type_of_ofType {type : UInt8} {t : Tlv} (h : Tlv.ofType type = some t) :
    t.type = type := by
  have hfind := List.find?_some (p := fun t => decide (Tlv.type t = type)) h
  exact of_decide_eq_true hfind

theorem type_ne (t : Tlv) : t.type ≠ tlvMdPaddingType ∧ t.type ≠ tlvMdEndType := by
  cases t <;> decide

theorem len_toNat (t : Tlv) : (UInt8.ofNat t.len).toNat = t.len := by cases t <;> rfl

theorem encodeTail_tlv {t : Tlv} {value : List UInt8} (h : value.length = t.len) :
    encodeTail (.tlv t value h :: items) rest =
      t.type :: UInt8.ofNat t.len :: (value ++ encodeTail items rest) := by
  simp [encodeTail, encodeItems, Item.encode]

theorem encodeTail_pos (items : List Item) (rest : List UInt8) :
    0 < (encodeTail items rest).length := by
  rw [encodeTail, List.length_append, List.length_cons]
  omega

/-- The scanner reads items up to the end marker. -/
theorem scan_encodeTail (items : List Item) (rest : List UInt8) (r : RxPacketMetaDataReport)
    (hfuel : (encodeTail items rest).length ≤ fuel) :
    scan fuel (encodeTail items rest) (encodeTail items rest).length r =
      some (some rest.length, items.foldl RxPacketMetaDataReport.apply r) := by
  induction items generalizing r fuel with
  | nil =>
    obtain ⟨fuel, rfl⟩ : ∃ n, fuel = n + 1 :=
      ⟨fuel - 1, by have hpos := encodeTail_pos [] rest; omega⟩
    rfl
  | cons item items ih =>
    cases item with
    | padding =>
      obtain ⟨fuel, rfl⟩ : ∃ n, fuel = n + 1 :=
        ⟨fuel - 1, by have hpos := encodeTail_pos (.padding :: items) rest; omega⟩
      exact ih r (Nat.le_of_succ_le_succ hfuel)
    | tlv t value hvalue =>
      have htail := encodeTail_pos items rest
      rw [encodeTail_tlv] at hfuel ⊢
      simp only [List.length_cons, List.length_append] at hfuel ⊢
      obtain ⟨fuel, rfl⟩ : ∃ n, fuel = n + 1 := ⟨fuel - 1, by omega⟩
      obtain ⟨hpadding, hend⟩ := type_ne t
      rw [scan, if_neg (Nat.succ_ne_zero _)]
      dsimp only
      rw [if_neg hpadding, if_neg hend, ofType_type]
      dsimp only
      rw [if_pos (by omega), if_pos (len_toNat t), ← hvalue, List.take_left, List.drop_left,
        set_eq_some r hvalue, Option.bind_some]
      have hrest : value.length + (encodeTail items rest).length + 1 + 1 - 1 - 1 - value.length =
          (encodeTail items rest).length := by omega
      rw [hrest, ih _ (by omega)]
      rfl

/-- It reads the bytes that there are, and finds an end marker only behind items. -/
theorem exists_scan (r : RxPacketMetaDataReport) (hfuel : pl.length ≤ fuel) :
    ∃ found r', scan fuel pl pl.length r = some (found, r') ∧
      ∀ behind ∈ found, ∃ items rest, pl = encodeTail items rest := by
  induction fuel generalizing pl r with
  | zero =>
    rw [List.length_eq_zero_iff.mp (Nat.le_zero.mp hfuel)]
    exact ⟨none, r, rfl, nofun⟩
  | succ fuel ih =>
    cases pl with
    | nil => exact ⟨none, r, rfl, nofun⟩
    | cons type pl =>
      rw [List.length_cons, scan, if_neg (Nat.succ_ne_zero _)]
      dsimp only
      split_ifs with hpadding hend
      · obtain ⟨found, r', hscan, hfound⟩ := ih r (Nat.le_of_succ_le_succ hfuel)
        refine ⟨found, r', hscan, fun behind hbehind => ?_⟩
        obtain ⟨items, rest, rfl⟩ := hfound behind hbehind
        exact ⟨.padding :: items, rest, hpadding ▸ rfl⟩
      · exact ⟨_, _, rfl, fun _ _ => ⟨[], pl, hend ▸ rfl⟩⟩
      · cases htype : Tlv.ofType type with
        | none => exact ⟨none, r, rfl, nofun⟩
        | some t =>
          dsimp only
          rw [Nat.add_sub_cancel]
          split_ifs with hlen
          · cases pl with
            | nil => cases hlen
            | cons len pl =>
              dsimp only
              simp only [List.length_cons] at hfuel hlen
              split_ifs with hlen'
              · have hvalue : (pl.take t.len).length = t.len := by
                  rw [List.length_take]
                  omega
                have hrest : pl.length + 1 - 1 - t.len = (pl.drop t.len).length := by
                  rw [List.length_drop]
                  rfl
                have hshorter : (pl.drop t.len).length ≤ fuel := by
                  rw [List.length_drop]
                  omega
                rw [set_eq_some r hvalue, Option.bind_some, List.length_cons, hrest]
                obtain ⟨found, r', hscan, hfound⟩ := ih _ hshorter
                refine ⟨found, r', hscan, fun behind hbehind => ?_⟩
                obtain ⟨items, rest, htail⟩ := hfound behind hbehind
                refine ⟨.tlv t (pl.take t.len) hvalue :: items, rest, ?_⟩
                have hlenByte : UInt8.ofNat t.len = len := by
                  rw [← hlen', UInt8.ofNat_toNat]
                rw [encodeTail_tlv, ← htail, List.take_append_drop, type_of_ofType htype, hlenByte]
              · exact ⟨none, r, rfl, nofun⟩
          · exact ⟨none, r, rfl, nofun⟩

/-- The length is that of the items and the end marker. -/
theorem getFullRxMetaDataReport_encodeTail (items : List Item) (rest : List UInt8)
    (r : RxPacketMetaDataReport) (hlong : minTlvLen ≤ (encodeTail items rest).length) :
    getFullRxMetaDataReport (encodeTail items rest) (encodeTail items rest).length r =
      some ((encodeTail items []).length, items.foldl RxPacketMetaDataReport.apply r) := by
  have hlength : (encodeTail items rest).length - rest.length = (encodeTail items []).length := by
    simp only [encodeTail, List.length_append, List.length_cons, List.length_nil]
    omega
  rw [getFullRxMetaDataReport, if_neg (Nat.not_lt.mpr hlong), scan_encodeTail _ _ _ (Nat.le_refl _),
    Option.map_some]
  dsimp only [Option.elim]
  rw [hlength]

theorem exists_getFullRxMetaDataReport (pl : List UInt8) (r : RxPacketMetaDataReport) :
    ∃ n r', getFullRxMetaDataReport pl pl.length r = some (n, r') ∧
      (n ≠ 0 → ∃ items rest, pl = encodeTail items rest) := by
  unfold getFullRxMetaDataReport
  split_ifs
  · exact ⟨0, r, rfl, fun h => absurd rfl h⟩
  · obtain ⟨found, r', hscan, hfound⟩ := exists_scan r (Nat.le_refl pl.length)
    rw [hscan]
    refine ⟨_, _, rfl, fun hne => ?_⟩
    cases found with
    | none => exact absurd rfl hne
    | some behind => exact hfound behind rfl

/-! ## The head -/

theorem getTimeFrequency_head (a b index c : UInt8) (rest : List UInt8)
    (r : RxPacketMetaDataReport) :
    getTimeFrequency (encodeHead a b index ++ c :: rest)
        (encodeHead a b index ++ c :: rest).length r =
      some (if c = tlvMdEndType then minMdLen else minMdLen - tlvMdEndLen, r.head a b index) := by
  have hlong : ¬ (encodeHead a b index ++ c :: rest).length < minMdLen := by
    simp only [encodeHead, minMdLen, List.length_append, List.length_cons, List.length_nil]
    omega
  rw [getTimeFrequency, if_neg hlong]
  rfl

theorem exists_nine (h : minMdLen ≤ pl.length) :
    ∃ b0 b1 b2 b3 b4 b5 b6 b7 b8 rest,
      pl = b0 :: b1 :: b2 :: b3 :: b4 :: b5 :: b6 :: b7 :: b8 :: rest := by
  obtain ⟨front, rest, rfl, hfront⟩ : ∃ front rest, pl = front ++ rest ∧ front.length = minMdLen :=
    ⟨pl.take minMdLen, pl.drop minMdLen, (List.take_append_drop _ _).symm, by
      rw [List.length_take]
      omega⟩
  match front, hfront with
  | [b0, b1, b2, b3, b4, b5, b6, b7, b8], _ =>
    exact ⟨b0, b1, b2, b3, b4, b5, b6, b7, b8, rest, rfl⟩

/-- Anything else is not the head of a segment. -/
theorem getTimeFrequency_cases (pl : List UInt8) (r : RxPacketMetaDataReport) :
    (∃ a b index c rest, pl = encodeHead a b index ++ c :: rest) ∨
      getTimeFrequency pl pl.length r = some (0, r) := by
  by_cases hshort : pl.length < minMdLen
  · exact Or.inr (if_pos hshort)
  obtain ⟨b0, b1, b2, b3, b4, b5, b6, b7, b8, rest, rfl⟩ := exists_nine (Nat.not_lt.mp hshort)
  rw [getTimeFrequency, if_neg hshort]
  by_cases h0 : b0 = tlvMdStartType
  · by_cases h1 : b1 = tlvMdSfnType
    · by_cases h2 : b2 = tlvMdSfnLen
      · by_cases h5 : b5 = tlvMdSubchIdxType
        · by_cases h6 : b6 = tlvMdSubchIdxLen
          · subst h0 h1 h2 h5 h6
            exact Or.inl ⟨b3, b4, b7, b8, rest, rfl⟩
          · exact Or.inr (by simp [h0, h1, h2, h5, h6])
        · exact Or.inr (by simp [h0, h1, h2, h5])
      · exact Or.inr (by simp [h0, h1, h2])
    · exact Or.inr (by simp [h0, h1])
  · exact Or.inr (by simp [h0])

end Scanners

end MetaData

end Cv2x

end SatComm
