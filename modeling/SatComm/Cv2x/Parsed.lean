import SatComm.Codes.Longest
import SatComm.Cv2x.Reports

/-!
# Turns of the parser

What one turn of the parser does with a payload that begins with a segment, and with one that does
not.
-/

namespace SatComm

namespace Cv2x

namespace MetaData

/-! ## One turn of the loop -/

/-- What follows a report. -/
def next (fuel : ℕ) (pl : List UInt8) (r : RxPacketMetaDataReport) (metaDataLen : ℕ)
    (metaDatas : List RxPacketMetaDataReport) : Option (ℕ × List RxPacketMetaDataReport) :=
  if minMdLen < pl.length then parse fuel pl pl.length r metaDataLen metaDatas
  else some (metaDataLen, metaDatas)

/-- The subframe number and the subchannel index are there, of this segment or of an earlier one. -/
def RxPacketMetaDataReport.Timed (r : RxPacketMetaDataReport) : Prop :=
  .subframeNumber ∈ r.metaDataMask ∧ .subchannelIndex ∈ r.metaDataMask

section Turn

variable {r : RxPacketMetaDataReport} {pl rest : List UInt8} {fuel n : ℕ}
  {acc : List RxPacketMetaDataReport} {s : Segment}

/-- Bytes that do not begin with a head are no segment, and end the parsing of the first one. -/
theorem parse_of_not_timed {r' : RxPacketMetaDataReport} {k : ℕ}
    (htime : getTimeFrequency pl pl.length r = some (k, r')) (hr' : ¬ r'.Timed) :
    parse (fuel + 1) pl pl.length r n acc = some (n, acc) := by
  rw [parse, htime, Option.bind_some]
  exact if_neg hr'

/-- The end marker follows the head. -/
theorem parse_of_minMdLen {r' : RxPacketMetaDataReport}
    (htime : getTimeFrequency pl pl.length r = some (minMdLen, r')) (hr' : r'.Timed) :
    parse (fuel + 1) pl pl.length r n acc =
      next fuel (pl.drop minMdLen) r' (n + minMdLen) (acc ++ [r']) := by
  rw [parse, htime, Option.bind_some]
  refine (if_pos hr').trans ?_
  rw [if_pos rfl, ← List.length_drop]
  rfl

/-- What follows is scanned. -/
theorem parse_of_full {r' r'' : RxPacketMetaDataReport} {k m : ℕ}
    (htime : getTimeFrequency pl pl.length r = some (k, r')) (hr' : r'.Timed) (hk : k ≠ minMdLen)
    (hfull : getFullRxMetaDataReport (pl.drop k) (pl.drop k).length r' = some (m, r'')) :
    parse (fuel + 1) pl pl.length r n acc =
      if m = 0 then some (n, acc)
      else next fuel ((pl.drop k).drop m) r'' (n + m + k) (acc ++ [r'']) := by
  rw [parse, htime, Option.bind_some]
  refine (if_pos hr').trans ?_
  rw [if_neg hk, ← List.length_drop, hfull, Option.bind_some]
  dsimp only
  rw [← List.length_drop]
  rfl

theorem timed_head (r : RxPacketMetaDataReport) (a b index : UInt8) : (r.head a b index).Timed := by
  simp [RxPacketMetaDataReport.Timed, RxPacketMetaDataReport.head]

theorem encode_append (s : Segment) (rest : List UInt8) :
    s.encode ++ rest =
      encodeHead s.sfnLow s.sfnHigh s.subChannelIndex ++ encodeTail s.items rest := by
  simp [Segment.encode, encodeTail]

theorem encodeTail_append (items : List Item) (rest : List UInt8) :
    encodeTail items rest = encodeTail items [] ++ rest := by
  simp [encodeTail]

/-- Where a segment goes on after its head. -/
theorem encodeTail_eq_cons (items : List Item) (rest : List UInt8) :
    ∃ c rest', encodeTail items rest = c :: rest' ∧ (c = tlvMdEndType ↔ items = []) := by
  cases items with
  | nil => exact ⟨_, _, rfl, iff_of_true rfl rfl⟩
  | cons item items =>
    cases item with
    | padding => exact ⟨_, _, rfl, iff_of_false (by decide) nofun⟩
    | tlv t value hvalue =>
      exact ⟨_, _, encodeTail_tlv hvalue, iff_of_false (type_ne t).2 nofun⟩

theorem encodeTail_padding (items : List Item) (rest : List UInt8) :
    encodeTail (.padding :: items) rest = tlvMdPaddingType :: encodeTail items rest := rfl

/-- There are enough bytes for the scanner, unless they are a padding byte and the end marker. -/
theorem minTlvLen_le_encodeTail {items : List Item} (hne : items ≠ [])
    (hpadding : items = [.padding] → rest ≠ []) : minTlvLen ≤ (encodeTail items rest).length := by
  have hend (items : List Item) := encodeTail_pos items rest
  have hitem (item : Item) (items : List Item) : 2 ≤ (encodeTail (item :: items) rest).length := by
    have htail := hend items
    cases item with
    | padding =>
      rw [encodeTail_padding, List.length_cons]
      omega
    | tlv t value hvalue =>
      rw [encodeTail_tlv, List.length_cons, List.length_cons]
      omega
  match items with
  | [] => exact absurd rfl hne
  | .tlv t value hvalue :: items =>
    have htail := hend items
    rw [encodeTail_tlv, List.length_cons, List.length_cons, List.length_append, minTlvLen]
    omega
  | [.padding] =>
    have hrest := List.length_pos_iff.mpr (hpadding rfl)
    rw [encodeTail_padding, List.length_cons, minTlvLen]
    change 3 ≤ rest.length + 1 + 1
    omega
  | .padding :: item :: items =>
    have htail := hitem item items
    rw [encodeTail_padding, List.length_cons, minTlvLen]
    omega

theorem getTimeFrequency_encode (s : Segment) (rest : List UInt8) (r : RxPacketMetaDataReport) :
    getTimeFrequency (s.encode ++ rest) (s.encode ++ rest).length r =
      some (if s.items = [] then minMdLen else minMdLen - tlvMdEndLen,
        r.head s.sfnLow s.sfnHigh s.subChannelIndex) := by
  obtain ⟨c, rest', htail, hend⟩ := encodeTail_eq_cons s.items rest
  rw [encode_append, htail, getTimeFrequency_head]
  simp only [hend]

theorem drop_head (a b index : UInt8) (l : List UInt8) :
    (encodeHead a b index ++ l).drop (minMdLen - tlvMdEndLen) = l := rfl

/-- A segment is read. -/
theorem parse_segment (s : Segment) (rest : List UInt8)
    (hpadding : s.items = [.padding] → rest ≠ []) :
    parse (fuel + 1) (s.encode ++ rest) (s.encode ++ rest).length r n acc =
      next fuel rest (r.add s) (n + s.encode.length) (acc ++ [r.add s]) := by
  have htime := getTimeFrequency_encode s rest r
  by_cases hitems : s.items = []
  · rw [if_pos hitems] at htime
    rw [parse_of_minMdLen htime (timed_head r _ _ _)]
    have hadd : r.add s = r.head s.sfnLow s.sfnHigh s.subChannelIndex := by
      rw [RxPacketMetaDataReport.add, hitems]
      rfl
    rw [hadd, Segment.encode, hitems]
    rfl
  · rw [if_neg hitems] at htime
    have hlong := minTlvLen_le_encodeTail hitems hpadding
    have hdrop : (s.encode ++ rest).drop (minMdLen - tlvMdEndLen) = encodeTail s.items rest := by
      rw [encode_append, drop_head]
    have hfull := getFullRxMetaDataReport_encodeTail s.items rest
      (r.head s.sfnLow s.sfnHigh s.subChannelIndex) hlong
    rw [← hdrop] at hfull
    have hpos := (encodeTail_pos s.items []).ne'
    rw [parse_of_full htime (timed_head r _ _ _) (by decide) hfull, if_neg hpos, hdrop,
      encodeTail_append s.items rest, List.drop_left]
    have hlength : s.encode.length = (minMdLen - tlvMdEndLen) + (encodeTail s.items []).length := by
      rw [Segment.encode, List.length_append]
      rfl
    rw [hlength, Nat.add_assoc n, Nat.add_comm (encodeTail s.items []).length]
    rfl

/-- The scanner needs three bytes. -/
theorem parse_padding (hs : s.items = [.padding]) :
    parse (fuel + 1) (s.encode ++ []) (s.encode ++ []).length r n acc = some (n, acc) := by
  have htime := getTimeFrequency_encode s [] r
  rw [if_neg (by rw [hs]; nofun)] at htime
  have hdrop : (s.encode ++ []).drop (minMdLen - tlvMdEndLen) = encodeTail s.items [] := by
    rw [encode_append, drop_head]
  have hfull : getFullRxMetaDataReport ((s.encode ++ []).drop (minMdLen - tlvMdEndLen))
      ((s.encode ++ []).drop (minMdLen - tlvMdEndLen)).length
      (r.head s.sfnLow s.sfnHigh s.subChannelIndex) =
        some (0, r.head s.sfnLow s.sfnHigh s.subChannelIndex) := by
    rw [hdrop, hs]
    rfl
  rw [parse_of_full htime (timed_head r _ _ _) (by decide) hfull, if_pos rfl]

/-- They look like the rest of a segment. -/
def LooksLikeTail (pl : List UInt8) : Prop :=
  ∃ (items : List Item) (rest : List UInt8), pl = encodeTail items rest

theorem begins_head {a b index : UInt8} (h : LooksLikeTail pl) :
    Codes.Begins Segment.encode (encodeHead a b index ++ pl) := by
  obtain ⟨items, rest, rfl⟩ := h
  exact ⟨⟨a, b, index, items⟩, rest, (encode_append ⟨a, b, index, items⟩ rest).symm⟩

/-- The scanner finds nothing in bytes that do not look like the rest of a segment. -/
theorem getFullRxMetaDataReport_of_not (h : ¬ LooksLikeTail pl) (r : RxPacketMetaDataReport) :
    ∃ r', getFullRxMetaDataReport pl pl.length r = some (0, r') := by
  obtain ⟨m, r', hfull, hm⟩ := exists_getFullRxMetaDataReport pl r
  have hzero : m = 0 := by_contra fun hne => h (hm hne)
  exact ⟨r', hzero ▸ hfull⟩

/-- Bytes that do not begin with a segment end the parsing, unless the head is left out. -/
theorem parse_of_not_begins (h : ¬ Codes.Begins Segment.encode pl) :
    parse (fuel + 1) pl pl.length r n acc = some (n, acc) ∨
      getTimeFrequency pl pl.length r = some (0, r) := by
  refine (getTimeFrequency_cases pl r).imp ?_ id
  rintro ⟨a, b, index, c, rest, rfl⟩
  have htime := getTimeFrequency_head a b index c rest r
  have hnot : ¬ LooksLikeTail (c :: rest) := fun htail => h (begins_head htail)
  have hend : c ≠ tlvMdEndType := by
    rintro rfl
    exact hnot ⟨[], rest, rfl⟩
  rw [if_neg hend] at htime
  obtain ⟨r', hfull⟩ := getFullRxMetaDataReport_of_not hnot (r.head a b index)
  rw [parse_of_full htime (timed_head r a b index) (by decide) hfull, if_pos rfl]

/-- The first report needs a head. -/
theorem parse_first_of_not_begins (h : ¬ Codes.Begins Segment.encode pl) (hr : ¬ r.Timed) :
    parse (fuel + 1) pl pl.length r n acc = some (n, acc) := by
  rcases @parse_of_not_begins r pl fuel n acc h with hparse | htime
  · exact hparse
  · exact parse_of_not_timed htime hr

/-- Later on the head of an earlier segment does. -/
theorem parse_later_of_not_begins (h : ¬ Codes.Begins Segment.encode pl) (hr : r.Timed)
    (htail : ¬ LooksLikeTail pl) :
    parse (fuel + 1) pl pl.length r n acc = some (n, acc) := by
  rcases @parse_of_not_begins r pl fuel n acc h with hparse | htime
  · exact hparse
  · obtain ⟨r', hfull⟩ := getFullRxMetaDataReport_of_not htail r
    rw [parse_of_full htime hr (by decide) hfull, if_pos rfl]

theorem encodeTail_ne_head (items : List Item) (rest : List UInt8) (a b index : UInt8)
    (l : List UInt8) : encodeTail items rest ≠ encodeHead a b index ++ l := by
  intro heq
  cases items with
  | nil => exact absurd (List.cons.inj heq).1 (by decide)
  | cons item items =>
    cases item with
    | padding => exact absurd (List.cons.inj heq).1 (by decide)
    | tlv t value hvalue =>
      rw [encodeTail_tlv] at heq
      have htype : t.type = tlvMdStartType := (List.cons.inj heq).1
      cases t <;> exact absurd htype (by decide)

/-- So bytes that look like the rest of a segment give a report. -/
theorem parse_looksLikeTail (items : List Item) (rest : List UInt8) (hr : r.Timed)
    (hlong : minTlvLen ≤ (encodeTail items rest).length) :
    ∃ r' m, parse (fuel + 1) (encodeTail items rest) (encodeTail items rest).length r n acc =
      next fuel rest r' m (acc ++ [r']) := by
  have htime : getTimeFrequency (encodeTail items rest) (encodeTail items rest).length r =
      some (0, r) := by
    refine (getTimeFrequency_cases _ r).resolve_left ?_
    rintro ⟨a, b, index, c, l, heq⟩
    exact encodeTail_ne_head items rest a b index _ heq
  have hfull := getFullRxMetaDataReport_encodeTail items rest r hlong
  have hpos := (encodeTail_pos items []).ne'
  rw [parse_of_full htime hr (by decide) hfull, if_neg hpos, List.drop_zero,
    encodeTail_append items rest, List.drop_left]
  exact ⟨_, _, rfl⟩

/-- The parser reads only bytes of the payload, and adds reports to those that there are. -/
theorem exists_parse (hfuel : pl.length < fuel) :
    ∃ m more, parse fuel pl pl.length r n acc = some (m, acc ++ more) := by
  induction fuel generalizing pl r n acc with
  | zero => exact absurd hfuel (Nat.not_lt_zero _)
  | succ fuel ih =>
    have hnext (pl' : List UInt8) (r' : RxPacketMetaDataReport) (m : ℕ)
        (hshorter : pl'.length < pl.length) :
        ∃ m' more, next fuel pl' r' m (acc ++ [r']) = some (m', acc ++ more) := by
      unfold next
      split_ifs
      · obtain ⟨m', more, hparse⟩ := ih (Nat.lt_of_lt_of_le hshorter (Nat.le_of_lt_succ hfuel))
        exact ⟨m', r' :: more, by rw [hparse, List.append_assoc]; rfl⟩
      · exact ⟨m, [r'], rfl⟩
    have hdone : ∃ m more, some (n, acc) = some (m, acc ++ more) :=
      ⟨n, [], by rw [List.append_nil]⟩
    have hfull (k : ℕ) {r' : RxPacketMetaDataReport} (hr' : r'.Timed) (hk : k ≠ minMdLen)
        (htime : getTimeFrequency pl pl.length r = some (k, r')) :
        ∃ m more, parse (fuel + 1) pl pl.length r n acc = some (m, acc ++ more) := by
      obtain ⟨m, r'', hscan, hm⟩ := exists_getFullRxMetaDataReport (pl.drop k) r'
      rw [parse_of_full htime hr' hk hscan]
      split_ifs with hzero
      · exact hdone
      · apply hnext
        obtain ⟨items, rest, htail⟩ := hm hzero
        have hpos : 0 < (pl.drop k).length := by
          rw [htail]
          exact encodeTail_pos items rest
        rw [List.length_drop] at hpos
        rw [List.length_drop, List.length_drop]
        omega
    rcases getTimeFrequency_cases pl r with ⟨a, b, index, c, rest, rfl⟩ | htime
    · have htime := getTimeFrequency_head a b index c rest r
      have htimed := timed_head r a b index
      split_ifs at htime with hend
      · rw [parse_of_minMdLen htime htimed]
        apply hnext
        rw [List.length_drop, List.length_append, encodeHead]
        simp only [List.length_cons, minMdLen]
        omega
      · exact hfull _ htimed (by decide) htime
    · by_cases hr : r.Timed
      · exact hfull 0 hr (by decide) htime
      · rw [parse_of_not_timed htime hr]
        exact hdone

end Turn

end MetaData

end Cv2x

end SatComm
