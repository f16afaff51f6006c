import SatComm.J2735.Decode

/-!
# What `decode_as_bsm` looks at

The nine words of the core are read for every length from `MIN_BSM_CORE_OCTETS` = 31 on, and most
fields of Part II without a look at what is left of the message. The decoder stays inside a
message, and reports one that is too short, exactly when the core is there and the first Part II
item that does not fit is one of its checks.
-/

namespace SatComm.J2735

open Bits Asnbuf Reader

section message

variable (m : Mem) (data len : Nat) (v : BsmValue)

/-- The fields of Part II that the message asks for, and the checks the decoder makes on its way
to them. -/
def partIIItems : List Item :=
  (readPartII (withCore m data len v)).announced m (8 * data + 293) 8

/-- One past the last bit of the announced fields: the core has 293 bits. What an extended message
has behind its core is not known. -/
def announcedEnd : Nat :=
  if ¬ isExtended m data ∧ announcesPartII m data then
    max (8 * data + 293) (fieldsEnd (partIIItems m data len v))
  else 8 * data + 293

/-- No byte behind the last one is looked at, and a message that ends before its fields do is
reported. -/
def DecodesInside : Prop :=
  (∀ x ∈ (decodeAsBsm m data len v).seen, x < data + len) ∧
    (8 * (data + len) < announcedEnd m data len v → (decodeAsBsm m data len v).result = -1)

theorem decodeAsBsm_short (h : len < 31) : decodeAsBsm m data len v = ⟨-1, none, []⟩ := by
  unfold decodeAsBsm
  rw [if_pos h]

theorem decodeAsBsm_extended (h : ¬ len < 31) (hx : isExtended m data) :
    decodeAsBsm m data len v = ⟨0, some v, List.range' data 4⟩ := by
  unfold decodeAsBsm
  rw [if_neg h, if_pos hx]

/-- The byte behind the ninth word is looked at when it is there. -/
theorem coreBytes_eq : (if data + 36 ≤ data + len - 1 then 37 else 36) =
    if 37 ≤ len then 37 else 36 := by
  split <;> split <;> omega

theorem decodeAsBsm_core (h : ¬ len < 31) (hx : ¬ isExtended m data)
    (hp : ¬ announcesPartII m data) :
    (decodeAsBsm m data len v).result = 0 ∧
      (decodeAsBsm m data len v).seen = List.range' data (if 37 ≤ len then 37 else 36) := by
  unfold decodeAsBsm
  rw [if_neg h, if_neg hx]
  simp only
  rw [if_neg (by simpa [withCore] using hp), coreBytes_eq]
  exact ⟨rfl, rfl⟩

theorem decodeAsBsm_partII (h : ¬ len < 31) (hx : ¬ isExtended m data)
    (hp : announcesPartII m data) :
    let r := (readPartII (withCore m data len v)).exec m (data + len - 1) ⟨data + 36, 3⟩ 8
    (decodeAsBsm m data len v).result = (if r.result = none then -1 else 0) ∧
      (decodeAsBsm m data len v).seen =
        List.range' data (if 37 ≤ len then 37 else 36) ++ r.seen := by
  intro r
  unfold decodeAsBsm
  rw [if_neg h, if_neg hx]
  simp only
  rw [if_pos (by simpa [withCore] using hp), coreBytes_eq]
  cases r.result with
  | none => exact ⟨rfl, rfl⟩
  | some w => exact ⟨rfl, rfl⟩

theorem range_inside_iff {n E : Nat} (hn : 0 < n) :
    (∀ x ∈ List.range' data n, x < E) ↔ data + n ≤ E := by
  simp only [List.mem_range'_1]
  constructor
  · intro h
    have := h (data + n - 1) (by omega)
    omega
  · intro h x hx
    omega

/-- Without Part II the whole core has to be there. -/
theorem decodesInside_core_iff (h : ¬ len < 31)
    (hcore : isExtended m data ∨ ¬ announcesPartII m data) :
    DecodesInside m data len v ↔ 37 ≤ len := by
  have hend : announcedEnd m data len v = 8 * data + 293 := by
    unfold announcedEnd
    rw [if_neg]
    rintro ⟨hx, hp⟩
    exact hcore.elim hx fun hp' => hp' hp
  unfold DecodesInside
  rw [hend]
  by_cases hx : isExtended m data
  · rw [decodeAsBsm_extended m data len v h hx]
    constructor
    · rintro ⟨-, hshort⟩
      by_contra hlt
      have hres : (0 : Int) = -1 := hshort (by omega)
      exact absurd hres (by decide)
    · intro hlen
      exact ⟨(range_inside_iff data (by decide)).mpr (by omega), fun hlt => by omega⟩
  · obtain ⟨hres, hseen⟩ := decodeAsBsm_core m data len v h hx (hcore.resolve_left hx)
    rw [hres, hseen]
    constructor
    · rintro ⟨-, hshort⟩
      by_contra hlt
      exact absurd (hshort (by omega)) (by decide)
    · intro hlen
      rw [if_pos hlen]
      exact ⟨(range_inside_iff data (by decide)).mpr (by omega), fun hlt => by omega⟩

/-- The first thing Part II does is a check. -/
theorem readPartII_of_no_byte (w : BsmValue) (saved : Nat) :
    ((readPartII w).exec m (data + 35) ⟨data + 36, 3⟩ saved).result = none := by
  have hneed : ((data + 35 : Nat) : Int) - (data + 36 : Nat) <
      (calcBytesNeededForNMoreBits 3 3 : Nat) := by
    have h1 : calcBytesNeededForNMoreBits 3 3 = 1 := rfl
    omega
  unfold readPartII
  rw [exec_needBits, if_pos hneed]

theorem decodesInside_partII_iff (h : ¬ len < 31) (hx : ¬ isExtended m data)
    (hp : announcesPartII m data) :
    DecodesInside m data len v ↔ 36 ≤ len ∧ Guarded (data + len) (partIIItems m data len v) := by
  have hc : (⟨data + 36, 3⟩ : Cursor).Valid := ⟨by simp, by simp⟩
  have hpos : (⟨data + 36, 3⟩ : Cursor).pos = 8 * data + 293 := by
    simp only [Cursor.pos]
    omega
  have hlast : data + len - 1 + 1 = data + len := by omega
  have hinside := exec_inside_iff m (data + len - 1) (readPartII (withCore m data len v)) hc
    (show 0 < 8 ∧ 8 ≤ 8 by decide)
  rw [hpos, hlast] at hinside
  have hend : announcedEnd m data len v =
      max (8 * data + 293) (fieldsEnd (partIIItems m data len v)) := if_pos ⟨hx, hp⟩
  obtain ⟨hres, hseen⟩ := decodeAsBsm_partII m data len v h hx hp
  unfold DecodesInside
  rw [hend, hres, hseen, forall_mem_append, hinside, range_inside_iff data (by split <;> decide)]
  constructor
  · rintro ⟨⟨hcore, hguard⟩, -⟩
    split at hcore
    · exact ⟨by omega, hguard⟩
    · exact ⟨by omega, hguard⟩
  · rintro ⟨hlen, hguard⟩
    refine ⟨⟨by split <;> omega, hguard⟩, fun hshort => if_pos ?_⟩
    by_contra hsome
    by_cases h36 : len = 36
    · subst h36
      exact hsome (readPartII_of_no_byte m data _ 8)
    · have hfit := fieldsEnd_le_of_guarded m (data + len - 1)
        (readPartII (withCore m data len v)) hc (show 0 < 8 ∧ 8 ≤ 8 by decide)
        (by rw [hpos, hlast]; exact hguard) hsome
      rw [hpos, hlast] at hfit
      unfold partIIItems at hshort
      omega

theorem decodesInside_iff :
    DecodesInside m data len v ↔
      len < 31 ∨
        (if ¬ isExtended m data ∧ announcesPartII m data then
          36 ≤ len ∧ Guarded (data + len) (partIIItems m data len v)
        else 37 ≤ len) := by
  by_cases h : len < 31
  · refine ⟨fun _ => .inl h, fun _ => ?_⟩
    unfold DecodesInside
    rw [decodeAsBsm_short m data len v h]
    exact ⟨by simp, fun _ => rfl⟩
  · rw [or_iff_right h]
    by_cases hII : ¬ isExtended m data ∧ announcesPartII m data
    · rw [if_pos hII]
      exact decodesInside_partII_iff m data len v h hII.1 hII.2
    · rw [if_neg hII]
      apply decodesInside_core_iff m data len v h
      by_cases hx : isExtended m data
      · exact .inl hx
      · exact .inr fun hp => hII ⟨hx, hp⟩

end message

/-- Thirty-one bytes, all zero, with nothing behind them: five bytes of the core are read beyond
the last one. -/
theorem not_decodesInside_core_bytes : ¬ DecodesInside (fun _ => 0) 0 31 BsmValue.zero := by
  intro h
  have hread : 35 ∈ (decodeAsBsm (fun _ => 0) 0 31 BsmValue.zero).seen := by
    simp [decodeAsBsm, isExtended, withCore, announcesPartII, word, Mem.byte]
  exact absurd (h.1 35 hread) (by decide)

end SatComm.J2735
