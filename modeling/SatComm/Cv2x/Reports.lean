import Mathlib.Data.Finset.Lattice.Lemmas
import Mathlib.Data.List.Chain
import SatComm.Cv2x.Segments

/-!
# Reports of meta data

One report structure is used for all segments, so that a report has the values of the earlier
segments, too, where its own segment has none.
-/

namespace SatComm

namespace Cv2x

namespace MetaData

namespace RxPacketMetaDataReport

/-! ## One report over the other -/

/-- The values of the second report, and those of the first one where the second has none. -/
def layer (r own : RxPacketMetaDataReport) : RxPacketMetaDataReport where
  metaDataMask := r.metaDataMask ∪ own.metaDataMask
  sfn := if .subframeNumber ∈ own.metaDataMask then own.sfn else r.sfn
  subChannelIndex :=
    if .subchannelIndex ∈ own.metaDataMask then own.subChannelIndex else r.subChannelIndex
  subChannelNum :=
    if .subchannelNumber ∈ own.metaDataMask then own.subChannelNum else r.subChannelNum
  prxRssi := if .prxRssi ∈ own.metaDataMask then own.prxRssi else r.prxRssi
  drxRssi := if .drxRssi ∈ own.metaDataMask then own.drxRssi else r.drxRssi
  l2DestinationId := if .l2DestId ∈ own.metaDataMask then own.l2DestinationId else r.l2DestinationId
  sciFormat1Info := if .sciFormat1 ∈ own.metaDataMask then own.sciFormat1Info else r.sciFormat1Info
  delayEstimation :=
    if .delayEstimation ∈ own.metaDataMask then own.delayEstimation else r.delayEstimation

variable {r own : RxPacketMetaDataReport}

theorem layer_head (r : RxPacketMetaDataReport) (a b index : UInt8) :
    r.head a b index = r.layer (zero.head a b index) := by
  simp only [head, layer, zero, Finset.empty_union]
  simp

/-- An item is applied to the report on top. -/
theorem layer_apply (r own : RxPacketMetaDataReport) (item : Item) :
    (r.layer own).apply item = r.layer (own.apply item) := by
  cases item with
  | padding => rfl
  | tlv t value hvalue =>
    cases t with
    | dstId | sci | pktDelayEst =>
      obtain ⟨_, _, _, _, rfl⟩ := List.length_eq_four.mp hvalue
      simp [apply, set, layer]
    | rssi =>
      obtain ⟨_, _, rfl⟩ := List.length_eq_two.mp hvalue
      simp [apply, set, layer]
    | subchNum =>
      obtain ⟨_, rfl⟩ := List.length_eq_one_iff.mp hvalue
      simp [apply, set, layer]

theorem layer_foldl (r own : RxPacketMetaDataReport) (items : List Item) :
    items.foldl apply (r.layer own) = r.layer (items.foldl apply own) := by
  induction items generalizing own with
  | nil => rfl
  | cons item items ih => rw [List.foldl_cons, List.foldl_cons, layer_apply, ih]

/-- A segment is written over what was there. -/
theorem add_eq_layer (r : RxPacketMetaDataReport) (s : Segment) : r.add s = r.layer s.report := by
  rw [add, layer_head, layer_foldl]
  rfl

section Field

variable {α : Type*} {p q : Prop} [Decidable p] [Decidable q] {x y z zero : α}

/-- Of two values that are 0 where they are not valid, the second is valid where the first is. -/
theorem ite_eq_of_imp (hx : (if p then x else zero) = x) (hy : (if q then y else zero) = y)
    (hpq : p → q) : (if q then y else x) = y := by
  by_cases hq : q
  · exact if_pos hq
  · rw [if_neg fun hp => hq (hpq hp)] at hx
    rw [if_neg hq] at hy ⊢
    exact hx.symm.trans hy

end Field

/-- The values that are not valid are 0. -/
def Plain (r : RxPacketMetaDataReport) : Prop := zero.layer r = r

theorem plain_zero : Plain zero := by simp [Plain, layer, zero]

theorem plain_report (s : Segment) : Plain s.report := (zero.add_eq_layer s).symm

/-- What was there leaves no trace when it has no other values. -/
theorem layer_eq_iff (hr : Plain r) (hown : Plain own) :
    r.layer own = own ↔ r.metaDataMask ⊆ own.metaDataMask := by
  constructor
  · intro h
    have hmask := congrArg metaDataMask h
    exact Finset.union_eq_right.mp hmask
  · intro hsubset
    cases r
    cases own
    obtain ⟨-, hr1, hr2, hr3, hr4, hr5, hr6, hr7, hr8⟩ := mk.inj hr
    obtain ⟨-, hown1, hown2, hown3, hown4, hown5, hown6, hown7, hown8⟩ := mk.inj hown
    simp only [layer, mk.injEq]
    exact ⟨Finset.union_eq_right.mpr hsubset, ite_eq_of_imp hr1 hown1 (hsubset ·),
      ite_eq_of_imp hr2 hown2 (hsubset ·), ite_eq_of_imp hr3 hown3 (hsubset ·),
      ite_eq_of_imp hr4 hown4 (hsubset ·), ite_eq_of_imp hr5 hown5 (hsubset ·),
      ite_eq_of_imp hr6 hown6 (hsubset ·), ite_eq_of_imp hr7 hown7 (hsubset ·),
      ite_eq_of_imp hr8 hown8 (hsubset ·)⟩

/-- Items take no value away. -/
theorem subset_foldl_apply (r : RxPacketMetaDataReport) (items : List Item) :
    r.metaDataMask ⊆ (items.foldl apply r).metaDataMask := by
  have hself : r.layer r = r := by simp [layer]
  have hlayer := layer_foldl r r items
  rw [hself] at hlayer
  rw [hlayer]
  exact Finset.subset_union_left

/-- The reports of segments, each over those before. -/
def layers (r : RxPacketMetaDataReport) : List Segment → List RxPacketMetaDataReport
  | [] => []
  | s :: segments => r.add s :: layers (r.add s) segments

/-- They are the reports of their own values when each segment has the values of the one before. -/
theorem layers_eq_iff (hr : Plain r) (segments : List Segment) :
    r.layers segments = segments.map Segment.report ↔
      (r :: segments.map Segment.report).IsChain fun r r' => r.metaDataMask ⊆ r'.metaDataMask := by
  induction segments generalizing r with
  | nil => simp [layers]
  | cons s segments ih =>
    rw [layers, List.map_cons, List.cons.injEq, List.isChain_cons_cons, add_eq_layer,
      layer_eq_iff hr (plain_report s)]
    refine and_congr_right fun hsubset => ?_
    rw [(layer_eq_iff hr (plain_report s)).mpr hsubset]
    exact ih (plain_report s)

end RxPacketMetaDataReport

/-! ## The values that a segment has -/

/-- The bits that a value sets. -/
def Tlv.bits : Tlv → Finset RxMetaDataValidityType
  | .dstId => {.l2DestId}
  | .rssi => {.prxRssi, .drxRssi}
  | .sci => {.sciFormat1}
  | .pktDelayEst => {.delayEstimation}
  | .subchNum => {.subchannelNumber}

/-- A value of this type is among the items. -/
def Has (items : List Item) (t : Tlv) : Prop :=
  ∃ (value : List UInt8) (h : value.length = t.len), Item.tlv t value h ∈ items

theorem mask_apply_tlv {t : Tlv} {value : List UInt8} (r : RxPacketMetaDataReport)
    (h : value.length = t.len) :
    (r.apply (.tlv t value h)).metaDataMask = r.metaDataMask ∪ t.bits := by
  cases t with
  | dstId | sci | pktDelayEst =>
    match value, h with
    | [_, _, _, _], _ => rfl
  | rssi =>
    match value, h with
    | [_, _], _ => rfl
  | subchNum =>
    match value, h with
    | [_], _ => rfl

theorem mem_foldl_apply {b : RxMetaDataValidityType} (r : RxPacketMetaDataReport)
    (items : List Item) :
    b ∈ (items.foldl RxPacketMetaDataReport.apply r).metaDataMask ↔
      b ∈ r.metaDataMask ∨ ∃ t, Has items t ∧ b ∈ t.bits := by
  induction items generalizing r with
  | nil => simp [Has]
  | cons item items ih =>
    rw [List.foldl_cons, ih]
    cases item with
    | padding =>
      simp only [Has, List.mem_cons, reduceCtorEq, false_or]
      rfl
    | tlv t value h =>
      rw [mask_apply_tlv, Finset.mem_union, or_assoc]
      refine or_congr_right ?_
      constructor
      · rintro (hb | ⟨t', ⟨value', h', hmem⟩, hb⟩)
        · exact ⟨t, ⟨value, h, List.mem_cons_self⟩, hb⟩
        · exact ⟨t', ⟨value', h', List.mem_cons_of_mem _ hmem⟩, hb⟩
      · rintro ⟨t', ⟨value', h', hmem⟩, hb⟩
        rcases List.mem_cons.mp hmem with heq | hmem
        · obtain ⟨rfl, -⟩ := Item.tlv.inj heq
          exact Or.inl hb
        · exact Or.inr ⟨t', ⟨value', h', hmem⟩, hb⟩

/-- The bit of one type only. -/
theorem exists_own_bit (t : Tlv) :
    ∃ b ∈ t.bits, b ≠ .subframeNumber ∧ b ≠ .subchannelIndex ∧ ∀ t' : Tlv, b ∈ t'.bits → t' = t := by
  cases t with
  | dstId => exact ⟨.l2DestId, by decide, by decide, by decide, fun t' => by cases t' <;> decide⟩
  | rssi => exact ⟨.prxRssi, by decide, by decide, by decide, fun t' => by cases t' <;> decide⟩
  | sci => exact ⟨.sciFormat1, by decide, by decide, by decide, fun t' => by cases t' <;> decide⟩
  | pktDelayEst =>
    exact ⟨.delayEstimation, by decide, by decide, by decide, fun t' => by cases t' <;> decide⟩
  | subchNum =>
    exact ⟨.subchannelNumber, by decide, by decide, by decide, fun t' => by cases t' <;> decide⟩

theorem mask_report_subset_iff (s s' : Segment) :
    s.report.metaDataMask ⊆ s'.report.metaDataMask ↔ ∀ t, Has s.items t → Has s'.items t := by
  have hmem (s : Segment) (b : RxMetaDataValidityType) : b ∈ s.report.metaDataMask ↔
      b ∈ ({.subframeNumber, .subchannelIndex} : Finset RxMetaDataValidityType) ∨
        ∃ t, Has s.items t ∧ b ∈ t.bits := by
    rw [Segment.report, RxPacketMetaDataReport.add, mem_foldl_apply]
    rfl
  constructor
  · intro hsubset t ht
    obtain ⟨b, hb, hsfn, hindex, hown⟩ := exists_own_bit t
    have hb' := (hmem s' b).mp (hsubset ((hmem s b).mpr (Or.inr ⟨t, ht, hb⟩)))
    rcases hb' with hhead | ⟨t', ht', hbits⟩
    · simp [hsfn, hindex] at hhead
    · exact hown t' hbits ▸ ht'
  · intro hhas b hb
    apply (hmem s' b).mpr
    exact ((hmem s b).mp hb).imp id fun ⟨t, ht, hbits⟩ => ⟨t, hhas t ht, hbits⟩

end MetaData

end Cv2x

end SatComm
