import SatComm.J2735.Sections

/-!
# The mass scale

The codes `0..253` stand for masses in steps of 50, 500 and 2000 kg. `VehicleMassEncode` takes
a mass to the last step that does not exceed it, but for the last half step below 64000 kg:
its middle branch ends at `(200 - 81) * 500` above 4000 kg, so a mass between 63500 and 64000 kg
falls into the branch for 2000 kg steps, where its negative distance to 64000 kg is divided to
`0` and the mass comes out as 64000 kg.
-/

namespace SatComm.J2735

/-- The codes that stand for a mass of at most `kg`. -/
def codesUpTo (kg : Nat) : Set Nat := {c | c ≤ 253 ∧ vehicleMassDecode c ≤ kg}

/-- The masses that are rounded up. -/
def RoundedUp (kg : Nat) : Prop := 63500 < kg ∧ kg < 64000

instance (kg : Nat) : Decidable (RoundedUp kg) := inferInstanceAs (Decidable (_ ∧ _))

/-- The three segments of the scale. -/
theorem vehicleMassDecode_eq {c : Nat} (hc : c ≤ 253) :
    vehicleMassDecode c = if c ≤ 80 then 50 * c else if c ≤ 200 then 4000 + 500 * (c - 80)
      else 64000 + 2000 * (c - 200) := by
  split_ifs with h80 h200
  · exact vehicleMassDecode_of_le h80
  · exact vehicleMassDecode_of_le_of_le (by omega) h200
  · exact vehicleMassDecode_of_lt (by omega) (by omega)

theorem vehicleMassEncode_eq {kg : Nat} (hkg : kg ≤ 170000) :
    vehicleMassEncode kg = if kg ≤ 4000 then kg / 50
      else if kg ≤ 63500 then 80 + (kg - 4000) / 500 else 200 + (kg - 64000) / 2000 := by
  rw [vehicleMassEncode, if_neg (by omega), if_neg (by omega)]
  split_ifs <;> omega

theorem vehicleMassDecode_strictMonoOn : StrictMonoOn vehicleMassDecode (Set.Iic 253) := by
  intro c hc d hd hlt
  rw [vehicleMassDecode_eq hc, vehicleMassDecode_eq hd]
  split_ifs <;> omega

theorem vehicleMassEncode_le {kg : Nat} (hkg : kg ≤ 170000) : vehicleMassEncode kg ≤ 253 := by
  rw [vehicleMassEncode_eq hkg]
  split_ifs <;> omega

/-- The code of a mass does not exceed it, up to the masses that are rounded up. -/
theorem vehicleMassDecode_encode_le_iff {kg : Nat} (hkg : kg ≤ 170000) :
    vehicleMassDecode (vehicleMassEncode kg) ≤ kg ↔ ¬ RoundedUp kg := by
  rw [vehicleMassDecode_eq (vehicleMassEncode_le hkg), vehicleMassEncode_eq hkg]
  unfold RoundedUp
  split_ifs <;> omega

/-- The next code, if it stands for a mass, exceeds the mass. -/
theorem lt_vehicleMassDecode_succ {kg : Nat} (hkg : kg ≤ 170000)
    (hc : vehicleMassEncode kg + 1 ≤ 253) :
    kg < vehicleMassDecode (vehicleMassEncode kg + 1) := by
  rw [vehicleMassDecode_eq hc]
  rw [vehicleMassEncode_eq hkg] at hc ⊢
  split_ifs at hc ⊢ <;> omega

theorem isGreatest_vehicleMassEncode_iff {kg : Nat} (hkg : kg ≤ 170000) :
    IsGreatest (codesUpTo kg) (vehicleMassEncode kg) ↔ ¬ RoundedUp kg := by
  rw [← vehicleMassDecode_encode_le_iff hkg]
  constructor
  · intro h
    exact h.1.2
  · intro hle
    refine ⟨⟨vehicleMassEncode_le hkg, hle⟩, ?_⟩
    rintro d ⟨hd, hdle⟩
    by_contra hlt
    have hsucc : vehicleMassEncode kg + 1 ≤ d := by omega
    have hnext := lt_vehicleMassDecode_succ hkg (hsucc.trans hd)
    have hmono := vehicleMassDecode_strictMonoOn.monotoneOn
      (show vehicleMassEncode kg + 1 ∈ Set.Iic 253 from hsucc.trans hd) hd hsucc
    omega

theorem vehicleMassEncode_monotoneOn :
    MonotoneOn (fun kg : Nat => vehicleMassEncode kg) (Set.Iic 170000) := by
  intro kg hkg kg' hkg' hle
  simp only [vehicleMassEncode_eq hkg, vehicleMassEncode_eq hkg']
  split_ifs <;> omega

theorem vehicleMassEncode_decode {c : Nat} (hc : c ≤ 253) :
    vehicleMassEncode (vehicleMassDecode c) = c := by
  have hkg : vehicleMassDecode c ≤ 170000 := by
    rw [vehicleMassDecode_eq hc]
    split_ifs <;> omega
  rw [vehicleMassEncode_eq hkg, vehicleMassDecode_eq hc]
  split_ifs <;> omega

/-- A mass of the scale gets the last code that does not exceed it iff it is not in the last
half step below 64000 kg, and only there it is rounded up. Everywhere the codes grow with the
masses, and every code is that of its own mass. -/
theorem vehicleMassEncode_isGreatest_iff {kg : Nat} (hkg : kg ≤ 170000) :
    (IsGreatest {c | c ≤ 253 ∧ vehicleMassDecode c ≤ kg} (vehicleMassEncode kg) ↔
      ¬ (63500 < kg ∧ kg < 64000)) ∧
    (vehicleMassDecode (vehicleMassEncode kg) ≤ kg ↔ ¬ (63500 < kg ∧ kg < 64000)) ∧
    (∀ kg' : Nat, kg ≤ kg' → kg' ≤ 170000 → vehicleMassEncode kg ≤ vehicleMassEncode kg') ∧
    ∀ c ≤ 253, vehicleMassEncode (vehicleMassDecode c) = c :=
  ⟨isGreatest_vehicleMassEncode_iff hkg, vehicleMassDecode_encode_le_iff hkg,
    fun _ hle hkg' => vehicleMassEncode_monotoneOn hkg hkg' hle,
    fun _ hc => vehicleMassEncode_decode hc⟩

theorem vehicleMassEncode_isGreatest_car :
    IsGreatest {c | c ≤ 253 ∧ vehicleMassDecode c ≤ 1729} (vehicleMassEncode (1729 : Nat)) ∧
      vehicleMassEncode (1729 : Nat) ≤ vehicleMassEncode (40000 : Nat) ∧
      vehicleMassEncode (vehicleMassDecode 152) = 152 := by
  obtain ⟨hgreatest, -, hmono, hcode⟩ :=
    vehicleMassEncode_isGreatest_iff (show 1729 ≤ 170000 by decide)
  exact ⟨hgreatest.mpr (by decide), hmono 40000 (by decide) (by decide), hcode 152 (by decide)⟩

/-- 63999 kg come out as 64000 kg. -/
theorem vehicleMassEncode_rounds_up :
    vehicleMassDecode (vehicleMassEncode 63999) = 64000 ∧
      ¬ IsGreatest {c | c ≤ 253 ∧ vehicleMassDecode c ≤ 63999} (vehicleMassEncode 63999) :=
  ⟨by decide, fun h => absurd h.1.2 (by decide)⟩

end SatComm.J2735
