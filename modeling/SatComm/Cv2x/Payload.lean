import SatComm.Cv2x.Parsed

/-!
# What the parser leaves to the user

The parser reads the longest sequence of segments and reports each by its own values, but for four
kinds of packets: those with a segment that lacks a value of the one before, those that end with a
last segment that is too short for the loop or for the scanner, and those with other bytes after the
segments that look like the rest of one.
-/

namespace SatComm

namespace Cv2x

namespace MetaData

/-! ## Segments are delimited -/

theorem encodeTail_unique {items items' : List Item} {rest rest' : List UInt8}
    (h : encodeTail items rest = encodeTail items' rest') : items = items' := by
  induction items generalizing items' with
  | nil =>
    obtain ⟨c, l, htail, hend⟩ := encodeTail_eq_cons items' rest'
    rw [htail] at h
    exact (hend.mp (List.cons.inj h).1.symm).symm
  | cons item items ih =>
    cases items' with
    | nil =>
      obtain ⟨c, l, htail, hend⟩ := encodeTail_eq_cons (item :: items) rest
      rw [htail] at h
      exact hend.mp (List.cons.inj h).1
    | cons item' items' =>
      cases item with
      | padding =>
        cases item' with
        | padding => rw [ih (List.cons.inj h).2]
        | tlv t' value' hvalue' =>
          rw [encodeTail_tlv] at h
          exact absurd (List.cons.inj h).1.symm (type_ne t').1
      | tlv t value hvalue =>
        rw [encodeTail_tlv] at h
        cases item' with
        | padding => exact absurd (List.cons.inj h).1 (type_ne t).1
        | tlv t' value' hvalue' =>
          rw [encodeTail_tlv] at h
          obtain ⟨htype, hbehind⟩ := List.cons.inj h
          have hsame : t = t' := by
            have hof := congrArg Tlv.ofType htype
            rw [ofType_type, ofType_type] at hof
            exact Option.some.inj hof
          subst hsame
          obtain ⟨rfl, htail⟩ :=
            List.append_inj (List.cons.inj hbehind).2 (hvalue.trans hvalue'.symm)
          rw [ih htail]

theorem delimited_encode : Codes.Delimited Segment.encode where
  ne_nil s h := by
    rw [Segment.encode] at h
    cases h
  unique {s s' x y} h := by
    rw [encode_append, encode_append] at h
    obtain ⟨hhead, htail⟩ := List.append_inj h rfl
    have hitems := encodeTail_unique htail
    simp only [encodeHead, List.cons.injEq, and_true, true_and] at hhead
    obtain ⟨hlow, hhigh, hindex⟩ := hhead
    cases s
    cases s'
    exact Segment.mk.injEq .. ▸ ⟨hlow, hhigh, hindex, hitems⟩

theorem length_encode (s : Segment) :
    s.encode.length = minMdLen - tlvMdEndLen + (encodeTail s.items []).length := by
  rw [Segment.encode, List.length_append]
  rfl

theorem minMdLen_le_encode (s : Segment) : minMdLen ≤ s.encode.length := by
  have hpos := encodeTail_pos s.items []
  rw [length_encode, minMdLen, tlvMdEndLen]
  omega

theorem length_lt_encode_append (s : Segment) (behind : List UInt8) :
    behind.length < (s.encode ++ behind).length := by
  have hpos := List.length_pos_iff.mpr (delimited_encode.ne_nil s)
  rw [List.length_append]
  omega

theorem minMdLen_lt_encode {s : Segment} (h : s.items ≠ []) : minMdLen < s.encode.length := by
  obtain ⟨item, items, hitems⟩ := List.exists_cons_of_ne_nil h
  rw [length_encode, minMdLen, tlvMdEndLen, hitems]
  cases item with
  | padding =>
    have hpos := encodeTail_pos items []
    rw [encodeTail_padding, List.length_cons]
    omega
  | tlv t value hvalue =>
    rw [encodeTail_tlv, List.length_cons, List.length_cons]
    omega

/-! ## The loop -/

section Loop

variable {r : RxPacketMetaDataReport} {rest : List UInt8} {segments : List Segment} {fuel n : ℕ}
  {acc : List RxPacketMetaDataReport}

/-- Behind a first segment, a last one is seen if there is enough of it, and what is not a segment
must not look like the rest of one. -/
structure Seen (segments : List Segment) (rest : List UInt8) : Prop where
  ending : rest = [] → ∀ s ∈ segments.getLast?, s.items ≠ [] ∧ s.items ≠ [.padding]
  payload : minMdLen < rest.length → ¬ LooksLikeTail rest

theorem exists_next (hfuel : rest.length < fuel) :
    ∃ m more, next fuel rest r n acc = some (m, acc ++ more) := by
  unfold next
  split_ifs
  · exact exists_parse hfuel
  · exact ⟨n, [], by rw [List.append_nil]⟩

theorem timed_add (r : RxPacketMetaDataReport) (s : Segment) : (r.add s).Timed := by
  obtain ⟨hsfn, hindex⟩ := timed_head r s.sfnLow s.sfnHigh s.subChannelIndex
  have hsubset := RxPacketMetaDataReport.subset_foldl_apply
    (r.head s.sfnLow s.sfnHigh s.subChannelIndex) s.items
  exact ⟨hsubset hsfn, hsubset hindex⟩

/-- What is behind the segments ends the loop. -/
theorem next_rest (hbegins : ¬ Codes.Begins Segment.encode rest) (hr : r.Timed)
    (htail : minMdLen < rest.length → ¬ LooksLikeTail rest) :
    next (fuel + 1) rest r n acc = some (n, acc) := by
  unfold next
  split_ifs with hlong
  · exact parse_later_of_not_begins hbegins hr (htail hlong)
  · rfl

/-- Or it is taken for one more. -/
theorem next_rest_of_looksLikeTail (hr : r.Timed) (hlong : minMdLen < rest.length)
    (htail : LooksLikeTail rest) (hfuel : rest.length ≤ fuel) :
    ∃ m more, next (fuel + 1) rest r n acc = some (m, acc ++ more) ∧ more ≠ [] := by
  obtain ⟨items, behind, rfl⟩ := htail
  have hscan : minTlvLen ≤ (encodeTail items behind).length := by
    rw [minTlvLen]
    rw [minMdLen] at hlong
    omega
  obtain ⟨r', m, hparse⟩ := @parse_looksLikeTail r fuel n acc items behind hr hscan
  have hshorter : behind.length < fuel := by
    have hpos := encodeTail_pos items []
    rw [encodeTail_append, List.length_append] at hfuel
    omega
  obtain ⟨m', more, hnext⟩ := @exists_next r' behind fuel m (acc ++ [r']) hshorter
  refine ⟨m', r' :: more, ?_, List.cons_ne_nil _ _⟩
  rw [next, if_pos hlong, hparse, hnext, List.append_assoc]
  rfl

/-- The last segment is not seen when the loop or the scanner wants more bytes. -/
theorem next_short {s : Segment} (hs : s.items = [] ∨ s.items = [.padding]) :
    next (fuel + 1) (s.encode ++ []) r n acc = some (n, acc) := by
  unfold next
  split_ifs with hlong
  · rcases hs with hs | hs
    · rw [List.append_nil, length_encode, hs] at hlong
      exact absurd hlong (Nat.lt_irrefl _)
    · exact parse_padding hs
  · rfl

/-- Otherwise it is read. -/
theorem next_segment {s : Segment} {behind : List UInt8}
    (h : behind = [] → s.items ≠ [] ∧ s.items ≠ [.padding]) :
    next (fuel + 1) (s.encode ++ behind) r n acc =
      next fuel behind (r.add s) (n + s.encode.length) (acc ++ [r.add s]) := by
  have hlong : minMdLen < (s.encode ++ behind).length := by
    rw [List.length_append]
    by_cases hbehind : behind = []
    · exact Nat.lt_add_right _ (minMdLen_lt_encode (h hbehind).1)
    · have hle := minMdLen_le_encode s
      have hpos := List.length_pos_iff.mpr hbehind
      omega
  rw [next, if_pos hlong, parse_segment s behind fun hpadding hbehind => (h hbehind).2 hpadding]

theorem encodeAll_append_eq_nil (segments : List Segment) (rest : List UInt8) :
    encodeAll segments ++ rest = [] ↔ segments = [] ∧ rest = [] := by
  rw [List.append_eq_nil_iff]
  refine and_congr_left fun _ => ?_
  cases segments with
  | nil => exact iff_of_true rfl rfl
  | cons s segments =>
    refine iff_of_false (fun h => ?_) nofun
    rw [encodeAll, List.flatMap_cons] at h
    exact delimited_encode.ne_nil s (List.append_eq_nil_iff.mp h).1

theorem seen_cons_iff (s : Segment) (segments : List Segment) (rest : List UInt8) :
    Seen (s :: segments) rest ↔
      (encodeAll segments ++ rest = [] → s.items ≠ [] ∧ s.items ≠ [.padding]) ∧
        Seen segments rest := by
  rw [encodeAll_append_eq_nil]
  cases segments with
  | nil =>
    constructor
    · intro h
      exact ⟨fun hrest => h.ending hrest.2 s rfl, nofun, h.payload⟩
    · rintro ⟨hlast, h⟩
      refine ⟨fun hrest s' hs' => ?_, h.payload⟩
      obtain rfl := Option.some.inj hs'
      exact hlast ⟨rfl, hrest⟩
  | cons s' segments =>
    have hlast : (s :: s' :: segments).getLast? = (s' :: segments).getLast? :=
      List.getLast?_cons_cons
    rw [and_iff_right fun hnil => nomatch hnil.1]
    constructor
    · intro h
      exact ⟨hlast ▸ h.ending, h.payload⟩
    · intro h
      exact ⟨hlast ▸ h.ending, h.payload⟩

theorem encodeAll_cons_append (s : Segment) (segments : List Segment) (rest : List UInt8) :
    encodeAll (s :: segments) ++ rest = s.encode ++ (encodeAll segments ++ rest) := by
  rw [encodeAll, List.flatMap_cons, List.append_assoc]
  rfl

/-- Segments that are seen are read, and nothing else. -/
theorem next_encodeAll (hbegins : ¬ Codes.Begins Segment.encode rest) (hr : r.Timed)
    (hseen : Seen segments rest) (hfuel : (encodeAll segments ++ rest).length < fuel) :
    next fuel (encodeAll segments ++ rest) r n acc =
      some (n + (encodeAll segments).length, acc ++ r.layers segments) := by
  induction segments generalizing r n acc fuel with
  | nil =>
    obtain ⟨fuel, rfl⟩ : ∃ k, fuel = k + 1 := ⟨fuel - 1, by omega⟩
    have hrest := @next_rest r rest fuel n acc hbegins hr hseen.payload
    simpa [encodeAll, RxPacketMetaDataReport.layers] using hrest
  | cons s segments ih =>
    obtain ⟨fuel, rfl⟩ : ∃ k, fuel = k + 1 := ⟨fuel - 1, by omega⟩
    obtain ⟨hlast, hseen⟩ := (seen_cons_iff s segments rest).mp hseen
    rw [encodeAll_cons_append] at hfuel ⊢
    have hshorter := (length_lt_encode_append s _).trans_le (Nat.le_of_lt_succ hfuel)
    rw [next_segment hlast, ih (timed_add r s) hseen hshorter]
    simp [encodeAll, RxPacketMetaDataReport.layers, Nat.add_assoc]

/-- Otherwise the number of reports is another one. -/
theorem next_encodeAll_of_not_seen (hr : r.Timed) (hseen : ¬ Seen segments rest)
    (hfuel : (encodeAll segments ++ rest).length < fuel) :
    ∃ m more, next fuel (encodeAll segments ++ rest) r n acc = some (m, acc ++ more) ∧
      more.length ≠ segments.length := by
  induction segments generalizing r n acc fuel with
  | nil =>
    obtain ⟨fuel, rfl⟩ : ∃ k, fuel = k + 1 := ⟨fuel - 1, by omega⟩
    have hpayload : minMdLen < rest.length ∧ LooksLikeTail rest := by
      by_contra hnot
      exact hseen ⟨nofun, fun hlong htail => hnot ⟨hlong, htail⟩⟩
    obtain ⟨m, more, hnext, hmore⟩ := @next_rest_of_looksLikeTail r rest fuel n acc hr
      hpayload.1 hpayload.2 (Nat.le_of_lt_succ hfuel)
    exact ⟨m, more, hnext, fun hlength => hmore (List.length_eq_zero_iff.mp hlength)⟩
  | cons s segments ih =>
    obtain ⟨fuel, rfl⟩ : ∃ k, fuel = k + 1 := ⟨fuel - 1, by omega⟩
    rw [encodeAll_cons_append] at hfuel ⊢
    by_cases hlast : encodeAll segments ++ rest = [] → s.items ≠ [] ∧ s.items ≠ [.padding]
    · have hrest : ¬ Seen segments rest := fun h =>
        hseen ((seen_cons_iff s segments rest).mpr ⟨hlast, h⟩)
      have hshorter := (length_lt_encode_append s _).trans_le (Nat.le_of_lt_succ hfuel)
      obtain ⟨m, more, hnext, hmore⟩ := @ih (r.add s) fuel (n + s.encode.length)
        (acc ++ [r.add s]) (timed_add r s) hrest hshorter
      refine ⟨m, r.add s :: more, ?_, ?_⟩
      · rw [next_segment hlast, hnext, List.append_assoc]
        rfl
      · rw [List.length_cons, List.length_cons]
        omega
    · obtain ⟨hnil, hshort⟩ := Classical.not_imp.mp hlast
      have hshort : s.items = [] ∨ s.items = [.padding] := by
        by_contra hnot
        exact hshort (not_or.mp hnot)
      refine ⟨n, [], ?_, nofun⟩
      rw [hnil, next_short hshort, List.append_nil]

end Loop

/-! ## All segments -/

/-- The packets that are read as they are: each segment has the values of the one before, the last
one is not too short, and other bytes do not look like the rest of a segment. -/
structure Regular (segments : List Segment) (rest : List UInt8) : Prop where
  values : segments.IsChain fun s s' => ∀ t, Has s.items t → Has s'.items t
  ending : rest = [] → ∀ s ∈ segments.getLast?,
    s.items ≠ [.padding] ∧ (s.items = [] → segments.length = 1)
  payload : segments ≠ [] → minMdLen < rest.length → ¬ LooksLikeTail rest

theorem regular_cons_iff (s : Segment) (segments : List Segment) (rest : List UInt8) :
    Regular (s :: segments) rest ↔
      (encodeAll segments ++ rest = [] → s.items ≠ [.padding]) ∧ Seen segments rest ∧
        RxPacketMetaDataReport.zero.layers (s :: segments) = (s :: segments).map Segment.report := by
  rw [encodeAll_append_eq_nil, RxPacketMetaDataReport.layers_eq_iff
    RxPacketMetaDataReport.plain_zero, List.map_cons, List.isChain_cons_cons,
    and_iff_right (show RxPacketMetaDataReport.zero.metaDataMask ⊆ _ from Finset.empty_subset _),
    ← List.map_cons, List.isChain_map]
  simp only [mask_report_subset_iff]
  cases segments with
  | nil =>
    constructor
    · intro h
      exact ⟨fun hrest => (h.ending hrest.2 s rfl).1, ⟨nofun, h.payload (List.cons_ne_nil _ _)⟩,
        h.values⟩
    · rintro ⟨hlast, hseen, hvalues⟩
      refine ⟨hvalues, fun hrest s' hs' => ?_, fun _ => hseen.payload⟩
      obtain rfl := Option.some.inj hs'
      exact ⟨hlast ⟨rfl, hrest⟩, fun _ => rfl⟩
  | cons s' segments =>
    have hlast : (s :: s' :: segments).getLast? = (s' :: segments).getLast? :=
      List.getLast?_cons_cons
    have hnone : s' :: segments = [] ∧ rest = [] → s.items ≠ [.padding] := fun h => nomatch h.1
    constructor
    · intro h
      refine ⟨hnone, ⟨fun hrest last hmem => ?_, h.payload (List.cons_ne_nil _ _)⟩, h.values⟩
      obtain ⟨hpadding, hlength⟩ := h.ending hrest last (hlast ▸ hmem)
      exact ⟨fun hitems => absurd (hlength hitems) (by simp), hpadding⟩
    · rintro ⟨-, hseen, hvalues⟩
      refine ⟨hvalues, fun hrest last hmem => ?_, fun _ => hseen.payload⟩
      obtain ⟨hitems, hpadding⟩ := hseen.ending hrest last (hlast ▸ hmem)
      exact ⟨hpadding, fun h => absurd h hitems⟩

theorem getRxMetaDataInfo_iff_regular (segments : List Segment) {rest : List UInt8}
    (hbegins : ¬ Codes.Begins Segment.encode rest) :
    getRxMetaDataInfo (encodeAll segments ++ rest) =
        some ((encodeAll segments).length, segments.map Segment.report) ↔
      Regular segments rest := by
  unfold getRxMetaDataInfo
  cases segments with
  | nil =>
    have hzero : ¬ RxPacketMetaDataReport.zero.Timed := fun h => absurd h.1 (Finset.notMem_empty _)
    exact iff_of_true (parse_first_of_not_begins hbegins hzero) ⟨.nil, nofun, absurd rfl⟩
  | cons s segments =>
    rw [regular_cons_iff, encodeAll_cons_append]
    by_cases hlast : encodeAll segments ++ rest = [] → s.items ≠ [.padding]
    · rw [and_iff_right hlast,
        parse_segment s _ fun hpadding hbehind => hlast hbehind hpadding]
      have hfuel := length_lt_encode_append s (encodeAll segments ++ rest)
      have htimed := timed_add RxPacketMetaDataReport.zero s
      by_cases hseen : Seen segments rest
      · have hlength : 0 + s.encode.length + (encodeAll segments).length =
            (encodeAll (s :: segments)).length := by
          rw [encodeAll, encodeAll, List.flatMap_cons, List.length_append, Nat.zero_add]
        rw [and_iff_right hseen, next_encodeAll hbegins htimed hseen hfuel, Option.some.injEq,
          Prod.mk.injEq, and_iff_right hlength]
        rfl
      · obtain ⟨m, more, hnext, hmore⟩ := @next_encodeAll_of_not_seen _ rest segments _
          (0 + s.encode.length) ([] ++ [RxPacketMetaDataReport.zero.add s]) htimed hseen hfuel
        refine iff_of_false (fun h => hmore ?_) fun h => hseen h.1
        rw [hnext] at h
        have hlength := congrArg List.length (Prod.mk.inj (Option.some.inj h)).2
        simp only [List.nil_append, List.singleton_append, List.length_cons,
          List.length_map] at hlength
        exact Nat.succ.inj hlength
    · obtain ⟨hnil, hshort⟩ := Classical.not_imp.mp hlast
      rw [hnil, parse_padding (not_not.mp hshort)]
      exact iff_of_false nofun fun h => hshort (h.1 rfl)

/-- Only bytes of the packet are read, and the result is the longest sequence of segments that it
begins with, each with the report of its own values. -/
def Parsed (p : List UInt8) : Prop :=
  ∃ segments, Codes.Longest Segment.encode p segments ∧
    getRxMetaDataInfo p = some ((encodeAll segments).length, segments.map Segment.report)

theorem parsed_iff_regular (p : List UInt8) :
    Parsed p ↔ ∃ segments, Codes.Longest Segment.encode p segments ∧
      Regular segments (p.drop (encodeAll segments).length) := by
  obtain ⟨segments, rest, rfl, hbegins⟩ := delimited_encode.exists_split p
  have hlongest := delimited_encode.longest_of_split (l := segments) hbegins
  have hregular := getRxMetaDataInfo_iff_regular segments hbegins
  constructor
  · rintro ⟨segments', hlongest', hparsed⟩
    obtain rfl := delimited_encode.longest_unique hlongest hlongest'
    refine ⟨segments, hlongest, ?_⟩
    rw [encodeAll, List.drop_left]
    exact hregular.mp hparsed
  · rintro ⟨segments', hlongest', hregular'⟩
    obtain rfl := delimited_encode.longest_unique hlongest hlongest'
    rw [encodeAll, List.drop_left] at hregular'
    exact ⟨segments, hlongest, hregular.mpr hregular'⟩

/-- The RSSI of the first segment is reported for the second one, too. -/
theorem rssi_reported_again : ∃ s s' : Segment, Codes.Longest Segment.encode
    [255, 2, 2, 10, 0, 3, 1, 4, 5, 2, 200, 201, 1, 255, 2, 2, 11, 0, 3, 1, 4, 0, 1, 72] [s, s'] ∧
    .prxRssi ∉ s'.report.metaDataMask ∧
    ¬ Parsed
      [255, 2, 2, 10, 0, 3, 1, 4, 5, 2, 200, 201, 1, 255, 2, 2, 11, 0, 3, 1, 4, 0, 1, 72] := by
  let s : Segment := ⟨10, 0, 4, [.tlv .rssi [200, 201] rfl]⟩
  let s' : Segment := ⟨11, 0, 4, [.padding]⟩
  have hrest : ¬ Codes.Begins Segment.encode [72] := by
    rintro ⟨s, rest, heq⟩
    have hlength := congrArg List.length heq
    have hle := minMdLen_le_encode s
    rw [List.length_append, List.length_singleton] at hlength
    rw [minMdLen] at hle
    omega
  have hlongest := delimited_encode.longest_of_split (l := [s, s']) hrest
  refine ⟨s, s', hlongest, by decide, ?_⟩
  rintro ⟨segments, hlongest', hparsed⟩
  obtain rfl := delimited_encode.longest_unique hlongest hlongest'
  exact absurd hparsed (by decide)

end MetaData

end Cv2x

end SatComm
