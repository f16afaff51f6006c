import SatComm.ECall.Frame

/-!
# The output vector of `generateECallMsd`

Every refusal but one comes before the output is cleared. The check that the message fits into
140 octets comes after the octets have been written.
-/

namespace SatComm.ECall

open Bits

/-- The data passes every check in front of the output. -/
structure Accepted (d : ECallMsdData) : Prop where
  version : d.msdVersion = 2 ∨ d.msdVersion = 3
  locations : d.msdVersion = 3 →
    d.optionals.recentVehicleLocationN1Present = true ∧
      d.optionals.recentVehicleLocationN2Present = true
  additional : d.optionals.optionalDataPresent = true → AdditionalDataOk d.optionalPdu

/-- The octets of a message. -/
def message (d : ECallMsdData) : List Nat := toOctets (content d ++ padding (content d))

theorem length_message {d : ECallMsdData} (hv : d.msdVersion = 2 ∨ d.msdVersion = 3) :
    (message d).length = 2 + octetsFor (writtenBits d) := by
  have hlen : (content d ++ padding (content d)).length % 8 = 0 := by
    rw [length_add_padding]
    omega
  rw [message, (octetBits_toOctets hlen).2, length_add_padding, length_content hv]
  unfold octetsFor
  omega

/-- The additional data, as the writers see it, where the checks pass. -/
theorem additional_of_accepted {d : ECallMsdData} (h : Accepted d) :
    (if d.optionals.optionalDataPresent then writeOptionalAdditionalData d.optionalPdu
      else .ok []) = .ok (additionalOf d) := by
  unfold additionalOf
  split
  · rename_i hp
    obtain ⟨hoid, henc, hdata, heven, hlong⟩ := h.additional hp
    rw [← not_lt] at hlong
    unfold writeOptionalAdditionalData writeOid writeOptionalData
    simp only [hoid, henc, hdata, heven, hlong, ne_eq, not_false_eq_true, ↓reduceIte,
      not_true_eq_false, bind, Except.bind, pure, Except.pure]
    rfl
  · rfl

theorem generateECallMsd_of_accepted {d : ECallMsdData} (h : Accepted d) (out : List Nat) :
    generateECallMsd d out =
      (if msdPduSize < (message d).length then Status.failed else Status.success, message d) := by
  have hsize := calculateMsdMessageLength_eq h.version h.additional
  have hcount : msdVersionTwoMandatoryFieldBits ≤ countedBits d ∧
      (d.msdVersion = 3 → msdVersionThreeMandatoryFieldBits ≤ countedBits d) := by
    unfold countedBits msdVersionTwoMandatoryFieldBits msdVersionThreeMandatoryFieldBits
    rcases h.version with hv | hv
    · simp only [hv, ↓reduceIte]
      exact ⟨by omega, fun h3 => absurd h3 (by decide)⟩
    · simp only [hv, show ¬ (3 : BitVec 8) = 2 by decide, ↓reduceIte]
      exact ⟨by omega, fun _ => by omega⟩
  have hversion : ¬ (d.msdVersion ≠ 2 ∧ d.msdVersion ≠ 3) := by
    rintro ⟨h2, h3⟩
    exact h.version.elim h2 h3
  have htwo : ¬ (d.msdVersion = 2 ∧
      octetsFor (countedBits d) < msdVersionTwoMandatoryFieldBits / 8) := by
    rintro ⟨-, hlt⟩
    have := hcount.1
    unfold octetsFor at hlt
    omega
  have hthree : ¬ (d.msdVersion = 3 ∧
      octetsFor (countedBits d) < msdVersionThreeMandatoryFieldBits / 8) := by
    rintro ⟨h3, hlt⟩
    have := hcount.2 h3
    unfold octetsFor at hlt
    omega
  have hlocations : ¬ (d.msdVersion = 3 ∧ (!d.optionals.recentVehicleLocationN1Present ∨
      !d.optionals.recentVehicleLocationN2Present)) := by
    rintro ⟨h3, hmissing⟩
    obtain ⟨h₁, h₂⟩ := h.locations h3
    simp [h₁, h₂] at hmissing
  unfold generateECallMsd
  rw [if_neg hversion, hsize]
  simp only
  rw [if_neg htwo, if_neg hthree, if_neg hlocations, additional_of_accepted h]
  change (if msdPduSize < (message d).length then (Status.failed, message d)
    else (Status.success, message d)) = _
  split <;> rfl

/-- A request that a check refuses leaves the output alone. -/
theorem generateECallMsd_of_refused {d : ECallMsdData} (h : ¬ Accepted d) (out : List Nat) :
    (generateECallMsd d out).1 ≠ .success ∧ (generateECallMsd d out).2 = out := by
  unfold generateECallMsd
  split
  · exact ⟨by simp, rfl⟩
  rename_i hversion
  have hv : d.msdVersion = 2 ∨ d.msdVersion = 3 := by
    by_contra hnot
    exact hversion (not_or.mp hnot)
  split
  · exact ⟨by simp, rfl⟩
  split
  · exact ⟨by simp, rfl⟩
  split
  · exact ⟨by simp, rfl⟩
  split
  · exact ⟨by simp, rfl⟩
  rename_i hlocations
  split
  · rename_i status hadd
    split at hadd
    · rw [writeOptionalAdditionalData_error hadd]
      exact ⟨by simp, rfl⟩
    · cases hadd
  · rename_i additional hadd
    -- every check has passed
    refine absurd ⟨hv, fun h3 => by simpa [h3] using hlocations, fun hp => ?_⟩ h
    rw [if_pos hp] at hadd
    exact (writeOptionalAdditionalData_ok hadd).1

/-- The checks in front of the output pass, and the fields take more than 138 octets behind the
length octet. -/
def Oversized (d : ECallMsdData) : Prop := Accepted d ∧ 8 * 138 < writtenBits d

theorem oversized_iff {d : ECallMsdData} (h : Accepted d) :
    Oversized d ↔ msdPduSize < (message d).length := by
  rw [length_message h.version, Oversized, and_iff_right h]
  unfold msdPduSize octetsFor
  omega

/-- A failing call leaves the output vector as it was, whatever it held, exactly for data that is
not refused for its size alone. -/
theorem generateECallMsd_keepsOutput_iff (d : ECallMsdData) :
    (∀ out, (generateECallMsd d out).1 ≠ .success → (generateECallMsd d out).2 = out) ↔
      ¬ Oversized d := by
  by_cases h : Accepted d
  · rw [oversized_iff h]
    constructor
    · intro hkeep hlong
      have hempty := hkeep [] (by rw [generateECallMsd_of_accepted h, if_pos hlong]; simp)
      rw [generateECallMsd_of_accepted h] at hempty
      simp only at hempty
      rw [hempty] at hlong
      exact absurd hlong (by decide)
    · intro hshort out hfailed
      rw [generateECallMsd_of_accepted h, if_neg hshort] at hfailed
      exact absurd rfl hfailed
  · constructor
    · intro _ hover
      exact h hover.1
    · intro _ out _
      exact (generateECallMsd_of_refused h out).2

/-- Additional data of 94 octets under a relative identifier of seven numbers, in a message of
version 3. -/
def oversizedData : ECallMsdData :=
  { dataWithVin with
    optionals := ⟨true, true, true, false⟩
    optionalPdu :=
      ⟨[49, 46, 50, 46, 51, 46, 52, 46, 53, 46, 54, 46, 55], List.replicate 188 48⟩
    msdVersion := 3 }

/-- The message of 141 octets is refused, and it is in the output vector. -/
theorem generateECallMsd_writes_before_failing :
    ¬ ∀ d out, (generateECallMsd d out).1 ≠ .success → (generateECallMsd d out).2 = out := by
  intro h
  have hempty := h oversizedData []
  revert hempty
  decide +kernel

end SatComm.ECall
