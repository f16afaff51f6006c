import Mathlib

/-!
# Lifetimes of packets

The octet `lt` of the basic header gives a lifetime as a multiplier of six bits and a base of two
bits. `EncodeLifeTime` chooses the base by ranges. The ranges leave out `1000` and `10000`, and
the branches from `10000` on assign the octet to the parameter, so that they return zero.
-/

namespace SatComm.GeoNet

/-! ## The code -/

def base2ms : List Nat := [50, 1000, 10000, 100000]

/-- The base an octet selects. -/
def baseOf (lt : UInt8) : Nat := base2ms.getD (lt.toNat &&& 0x3) 0

/-- `GeoNetRouterImpl::DecodeLifeTime`. -/
def decodeLifeTime (lt : UInt8) : Nat := (lt.toNat >>> 2) * baseOf lt

/-- `GeoNetRouterImpl::EncodeLifeTime`. -/
def encodeLifeTime (ltInMs : Nat) : UInt8 :=
  let lt : UInt8 := 0
  if ltInMs < 1000 then UInt8.ofNat ((ltInMs / 50 &&& 0xFF) <<< 2)
  else if 1000 < ltInMs ∧ ltInMs < 10000 then
    UInt8.ofNat ((ltInMs / 1000 &&& 0xFF) <<< 2 ||| 1)
  -- here and in the last branch the source writes to `lt_in_ms`
  else if ltInMs < 100000 ∧ 10000 < ltInMs then lt
  else lt

/-! ## Coding and decoding -/

/-- What is left of a lifetime. -/
def coded (t : Nat) : Nat := decodeLifeTime (encodeLifeTime t)

theorem decode_multiplier {m i : Nat} (hm : m < 64) (hi : i < 4) :
    (UInt8.ofNat (4 * m + i)).toNat >>> 2 = m ∧
      baseOf (UInt8.ofNat (4 * m + i)) = base2ms.getD i 0 := by
  have hnat : (UInt8.ofNat (4 * m + i)).toNat = 4 * m + i := by
    rw [UInt8.toNat_ofNat']
    exact Nat.mod_eq_of_lt (by omega)
  have hlow : (4 * m + i) &&& 0x3 = i := by
    rw [show (0x3 : Nat) = 2 ^ 2 - 1 from rfl, Nat.and_two_pow_sub_one_eq_mod]
    omega
  rw [baseOf, hnat, hlow, Nat.shiftRight_eq_div_pow]
  exact ⟨by omega, rfl⟩

theorem encodeLifeTime_of_lt {t : Nat} (h : t < 1000) :
    encodeLifeTime t = UInt8.ofNat (4 * (t / 50) + 0) := by
  have hsmall : t / 50 &&& 0xFF = t / 50 := by
    rw [show (0xFF : Nat) = 2 ^ 8 - 1 from rfl, Nat.and_two_pow_sub_one_eq_mod]
    omega
  rw [encodeLifeTime, if_pos h, hsmall, Nat.shiftLeft_eq, Nat.mul_comm]
  rfl

theorem encodeLifeTime_of_between {t : Nat} (h : 1000 < t) (h' : t < 10000) :
    encodeLifeTime t = UInt8.ofNat (4 * (t / 1000) + 1) := by
  have hsmall : t / 1000 &&& 0xFF = t / 1000 := by
    rw [show (0xFF : Nat) = 2 ^ 8 - 1 from rfl, Nat.and_two_pow_sub_one_eq_mod]
    omega
  have hor : (t / 1000) <<< 2 ||| 1 = 4 * (t / 1000) + 1 := by
    rw [← Nat.shiftLeft_add_eq_or_of_lt (by decide), Nat.shiftLeft_eq, Nat.mul_comm]
  rw [encodeLifeTime, if_neg (by omega), if_pos ⟨h, h'⟩, hsmall, hor]

theorem encodeLifeTime_of_lost {t : Nat} (h : t = 1000 ∨ 10000 ≤ t) : encodeLifeTime t = 0 := by
  rw [encodeLifeTime, if_neg (by omega), if_neg (by omega)]
  split <;> rfl

theorem coded_of_lt {t : Nat} (h : t < 1000) : coded t = t / 50 * 50 := by
  obtain ⟨hm, hbase⟩ := decode_multiplier (m := t / 50) (i := 0) (by omega) (by decide)
  rw [coded, encodeLifeTime_of_lt h, decodeLifeTime, hm, hbase]
  rfl

theorem coded_of_between {t : Nat} (h : 1000 < t) (h' : t < 10000) :
    coded t = t / 1000 * 1000 := by
  obtain ⟨hm, hbase⟩ := decode_multiplier (m := t / 1000) (i := 1) (by omega) (by decide)
  rw [coded, encodeLifeTime_of_between h h', decodeLifeTime, hm, hbase]
  rfl

theorem coded_of_lost {t : Nat} (h : t = 1000 ∨ 10000 ≤ t) : coded t = 0 := by
  rw [coded, encodeLifeTime_of_lost h]
  rfl

/-- A lifetime that is coded as none at all. -/
theorem coded_eq_zero_iff (t : Nat) : coded t = 0 ↔ t < 50 ∨ t = 1000 ∨ 10000 ≤ t := by
  rcases lt_or_ge t 1000 with hlt | hge
  · rw [coded_of_lt hlt]
    omega
  · by_cases hlost : t = 1000 ∨ 10000 ≤ t
    · rw [coded_of_lost hlost]
      omega
    · rw [coded_of_between (by omega) (by omega)]
      omega

/-! ## What the coding is for -/

/-- A multiplier of six bits gives the lifetime in base `i`. -/
def FitsBase (i t : Nat) : Prop := ∃ m ≤ 63, t = m * base2ms.getD i 0

/-- The lifetime is given in base `i` and in no smaller one. -/
def NeedsBase (i t : Nat) : Prop := FitsBase i t ∧ ∀ j < i, ¬ FitsBase j t

/-- The coding rounds down, by less than the base it selects; a longer lifetime is not coded as a
shorter one; what needs a base is reproduced. -/
structure Faithful (t : Nat) : Prop where
  le : coded t ≤ t
  loss : t - coded t < baseOf (encodeLifeTime t)
  monotone : ∀ s ≤ t, coded s ≤ coded t
  exact : ∀ i < 4, NeedsBase i t → coded t = t

theorem fitsBase_zero_iff (t : Nat) : FitsBase 0 t ↔ t ≤ 3150 ∧ 50 ∣ t := by
  constructor
  · rintro ⟨m, hm, rfl⟩
    exact ⟨by simp only [base2ms, List.getD_cons_zero]; omega, Nat.dvd_mul_left 50 m⟩
  · rintro ⟨hle, m, rfl⟩
    exact ⟨m, by omega, Nat.mul_comm 50 m⟩

/-- In a larger base a lifetime is a multiple of `1000`. -/
theorem dvd_of_fitsBase {i t : Nat} (hi : i < 4) (hpos : i ≠ 0) (h : FitsBase i t) :
    1000 ∣ t := by
  obtain ⟨m, -, rfl⟩ := h
  refine Nat.dvd_mul_left_of_dvd ?_ m
  interval_cases i
  · exact absurd rfl hpos
  · exact ⟨1, rfl⟩
  · exact ⟨10, rfl⟩
  · exact ⟨100, rfl⟩

/-- A lifetime of less than `10000` ms other than `1000`, unless it needs base `50` and is coded in
base `1000`. -/
def Codable (t : Nat) : Prop :=
  t < 10000 ∧ t ≠ 1000 ∧ (1000 < t → t ≤ 3150 → 50 ∣ t → 1000 ∣ t)

theorem coded_le (t : Nat) : coded t ≤ t := by
  rcases lt_or_ge t 1000 with hlt | hge
  · rw [coded_of_lt hlt]
    omega
  · by_cases hlost : t = 1000 ∨ 10000 ≤ t
    · rw [coded_of_lost hlost]
      omega
    · rw [coded_of_between (by omega) (by omega)]
      omega

theorem faithful_of_codable {t : Nat} (h : Codable t) : Faithful t := by
  obtain ⟨hlt, hne, hbase⟩ := h
  rcases lt_or_gt_of_ne hne with hsmall | hlarge
  · have ht := coded_of_lt hsmall
    obtain ⟨-, hunit⟩ := decode_multiplier (m := t / 50) (i := 0) (by omega) (by decide)
    rw [← encodeLifeTime_of_lt hsmall] at hunit
    refine ⟨coded_le t, ?_, fun s hs => ?_, fun i hi hneeds => ?_⟩
    · rw [ht, hunit]
      simp only [base2ms, List.getD_cons_zero]
      omega
    · rw [ht, coded_of_lt (by omega)]
      omega
    · -- below `1000` only zero is a multiple of a larger base
      rw [ht]
      by_cases hi0 : i = 0
      · rw [hi0] at hneeds
        have := ((fitsBase_zero_iff t).mp hneeds.1).2
        omega
      · have := dvd_of_fitsBase hi hi0 hneeds.1
        omega
  · have ht := coded_of_between hlarge hlt
    obtain ⟨-, hunit⟩ := decode_multiplier (m := t / 1000) (i := 1) (by omega) (by decide)
    rw [← encodeLifeTime_of_between hlarge hlt] at hunit
    refine ⟨coded_le t, ?_, fun s hs => ?_, fun i hi hneeds => ?_⟩
    · rw [ht, hunit]
      simp only [base2ms, List.getD_cons_succ, List.getD_cons_zero]
      omega
    · rw [ht]
      rcases lt_trichotomy s 1000 with hs' | rfl | hs'
      · have := coded_le s
        omega
      · rw [coded_of_lost (Or.inl rfl)]
        omega
      · rw [coded_of_between hs' (by omega)]
        omega
    · have hdvd : 1000 ∣ t := by
        by_cases hi0 : i = 0
        · rw [hi0] at hneeds
          obtain ⟨hle, h50⟩ := (fitsBase_zero_iff t).mp hneeds.1
          exact hbase hlarge hle h50
        · exact dvd_of_fitsBase hi hi0 hneeds.1
      rw [ht]
      omega

/-- The coding of a lifetime is faithful exactly for lifetimes of less than `10000` ms other than
`1000`, except those that are coded in a coarser base than they need. -/
theorem faithful_iff (t : Nat) : Faithful t ↔ Codable t := by
  constructor
  · intro h
    have hkept : ¬ (t = 1000 ∨ 10000 ≤ t) := by
      intro hlost
      have hloss := h.loss
      rw [coded_of_lost hlost, encodeLifeTime_of_lost hlost] at hloss
      have hzero : baseOf 0 = 50 := rfl
      omega
    refine ⟨by omega, by omega, fun hlarge hle h50 => ?_⟩
    have hfits := (fitsBase_zero_iff t).mpr ⟨hle, h50⟩
    have hexact := h.exact 0 (by decide) ⟨hfits, fun j hj => absurd hj (Nat.not_lt_zero j)⟩
    rw [coded_of_between hlarge (by omega)] at hexact
    omega
  · exact faithful_of_codable

/-- A lifetime of 70 seconds, seven times the base of ten seconds, is coded as none. -/
theorem not_faithful_70000 : NeedsBase 2 70000 ∧ coded 70000 = 0 ∧ ¬ Faithful 70000 := by
  refine ⟨⟨⟨7, by decide, rfl⟩, ?_⟩, by decide, fun h => ?_⟩
  · intro j hj
    rintro ⟨m, hm, heq⟩
    interval_cases j
    · simp only [base2ms, List.getD_cons_zero] at heq
      omega
    · simp only [base2ms, List.getD_cons_succ, List.getD_cons_zero] at heq
      omega
  · have hloss := h.loss
    revert hloss
    decide

end SatComm.GeoNet
