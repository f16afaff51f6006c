import SatComm.ECall.Msd

/-!
# The frame of the message

The length octet is right exactly when the characters of the vehicle identification number that
are written fill the space the constants set aside for it. The rest of the message, written by
one function and counted by another, always agrees.
-/

namespace SatComm.ECall

open Bits

/-! ## Octets -/

theorem toOctets_append {a : List Bool} (ha : a.length = 8) (b : List Bool) :
    toOctets (a ++ b) = ofBits a :: toOctets b := by
  have hcount : ((a ++ b).length + 7) / 8 = (b.length + 7) / 8 + 1 := by
    rw [List.length_append]
    omega
  unfold toOctets
  rw [hcount, List.range_succ_eq_map, List.map_cons, List.map_map]
  congr 1
  · rw [Nat.mul_zero, List.drop_zero, List.take_left' ha]
  · apply List.map_congr_left
    intro i _
    simp only [Function.comp_apply, Nat.succ_eq_add_one]
    rw [show 8 * (i + 1) = a.length + 8 * i by omega, ← List.drop_drop, List.drop_left]

/-- Whole octets hold the bits they were made from. -/
theorem octetBits_toOctets {bits : List Bool} (h : bits.length % 8 = 0) :
    octetBits (toOctets bits) = bits ∧ (toOctets bits).length = bits.length / 8 := by
  obtain ⟨n, hn⟩ : ∃ n, bits.length = 8 * n := ⟨bits.length / 8, by omega⟩
  clear h
  induction n generalizing bits with
  | zero =>
    obtain rfl := List.length_eq_zero_iff.mp hn
    exact ⟨rfl, rfl⟩
  | succ n ih =>
    have hfirst : (bits.take 8).length = 8 := by
      rw [List.length_take]
      omega
    have hrest : (bits.drop 8).length = 8 * n := by
      rw [List.length_drop]
      omega
    obtain ⟨hbits, hlen⟩ := ih hrest
    have hocts : toOctets bits = ofBits (bits.take 8) :: toOctets (bits.drop 8) := by
      conv_lhs => rw [← List.take_append_drop 8 bits]
      exact toOctets_append hfirst _
    have hoctet := toBits_ofBits (bits.take 8)
    rw [hfirst] at hoctet
    constructor
    · rw [hocts, octetBits_cons, hoctet, hbits, List.take_append_drop]
    · rw [hocts, List.length_cons, hlen, hrest, hn]
      omega

/-! ## Lengths -/

@[simp]
theorem length_flag (b : Bool) : (flag b).length = 1 := length_toBits 1 _

@[simp]
theorem length_signed (w : Nat) (value : Int) : (signed w value).length = w := length_toBits w _

theorem length_flatMap_of_const {α : Type*} {f : α → List Bool} {w : Nat}
    (h : ∀ x, (f x).length = w) (l : List α) : (l.flatMap f).length = w * l.length := by
  induction l with
  | nil => rfl
  | cons x l ih =>
    rw [List.flatMap_cons, List.length_append, h, ih, List.length_cons]
    ring

@[simp]
theorem length_writePrintableString (input : Text) (optionalData : Bool) :
    (writePrintableString input optionalData).length =
      (if optionalData then 4 else 6) * input.length :=
  length_flatMap_of_const (fun _ => length_toBits _ _) input

/-- The characters of the number that `writeVehicleIdentification` writes. -/
def vinCharacters (vin : ECallVehicleIdentificationNumber) : Nat :=
  vin.isowmi.length +
    if vin.isovds.length ≠ 6 then 0
    else 6 + if vin.isovisModelyear.length ≠ 1 then 0
      else 1 + if vin.isovisSeqPlant.length ≠ 7 then 0 else 7

theorem length_writeVehicleIdentification (vin : ECallVehicleIdentificationNumber) :
    (writeVehicleIdentification vin).length = 6 * vinCharacters vin := by
  unfold writeVehicleIdentification vinCharacters
  split
  · simp
  · split
    · rename_i hvds _
      simp only [not_not] at hvds
      simp [hvds]
      omega
    · rename_i hvds hyear
      simp only [not_not] at hvds hyear
      split
      · simp [hvds, hyear]
        omega
      · rename_i hplant
        simp only [not_not] at hplant
        simp [hvds, hyear, hplant]
        omega

theorem length_writeVehiclePropulsionStorage (storage : ECallVehiclePropulsionStorageType) :
    (writeVehiclePropulsionStorage storage).length = 15 := by
  simp [writeVehiclePropulsionStorage]

@[simp]
theorem length_writeVehicleLocationDelta (delta : ECallVehicleLocationDelta) :
    (writeVehicleLocationDelta delta).length = 20 := by
  simp [writeVehicleLocationDelta]

/-- Four or six bits of flags, the message identifier and the control bits. -/
theorem length_writeOptionals (d : ECallMsdData) :
    (writeOptionals d).length = if d.msdVersion = 2 then 6 else 4 := by
  unfold writeOptionals
  split <;> simp

theorem length_writeControl (d : ECallMsdData) :
    (writeControl d).length = if d.msdVersion = 3 then 9 else 8 := by
  unfold writeControl
  split <;> simp

/-- The bits that a flag stands for. -/
def bitsIf (present : Bool) (w : Nat) : Nat := if present then w else 0

theorem length_writeRecent (d : ECallMsdData) :
    (writeRecent d).length =
      (if d.msdVersion = 3 then 40
      else bitsIf d.optionals.recentVehicleLocationN1Present 20 +
        bitsIf d.optionals.recentVehicleLocationN2Present 20) +
      bitsIf d.optionals.numberOfPassengersPresent 8 := by
  unfold writeRecent bitsIf
  simp only [List.length_append]
  by_cases hv : d.msdVersion = 3
  · simp only [hv, or_true, ↓reduceIte, length_writeVehicleLocationDelta]
    split <;> simp
  · simp only [hv, or_false, ↓reduceIte]
    split <;> split <;> split <;> simp

/-- The bits of the additional data that pass the checks. -/
def additionalData (optionalPdu : ECallOptionalPdu) : List Bool :=
  toBits 8 (encodedOid optionalPdu.oid).length ++
    (encodedOid optionalPdu.oid).flatMap (signed 8) ++
    (toBits 8 (optionalPdu.data.length / 2) ++ writePrintableString optionalPdu.data true)

/-- The checks on the additional data. -/
structure AdditionalDataOk (optionalPdu : ECallOptionalPdu) : Prop where
  oid : optionalPdu.oid ≠ []
  encoded : (encodedOid optionalPdu.oid).length ≠ 0
  data : optionalPdu.data ≠ []
  even : optionalPdu.data.length % 2 = 0
  bounded : optionalPdu.data.length / 2 ≤ maxOadLength

theorem writeOptionalAdditionalData_ok {optionalPdu : ECallOptionalPdu} {bits : List Bool}
    (h : writeOptionalAdditionalData optionalPdu = .ok bits) :
    AdditionalDataOk optionalPdu ∧ bits = additionalData optionalPdu := by
  unfold writeOptionalAdditionalData writeOid writeOptionalData at h
  by_cases hoid : optionalPdu.oid = []
  · simp [hoid, bind, Except.bind] at h
  · by_cases henc : (encodedOid optionalPdu.oid).length = 0
    · simp [hoid, henc, bind, Except.bind] at h
    · by_cases hdata : optionalPdu.data = []
      · simp [hoid, henc, hdata, bind, Except.bind] at h
      · by_cases heven : optionalPdu.data.length % 2 = 0
        · by_cases hlong : maxOadLength < optionalPdu.data.length / 2
          · simp [hoid, henc, hdata, heven, hlong, bind, Except.bind] at h
          · refine ⟨⟨hoid, henc, hdata, heven, not_lt.mp hlong⟩, ?_⟩
            simp only [hoid, henc, hdata, heven, hlong, ne_eq, not_false_eq_true, ↓reduceIte,
              not_true_eq_false, bind, Except.bind, pure, Except.pure, Except.ok.injEq] at h
            exact h.symm
        · simp [hoid, henc, hdata, heven, bind, Except.bind] at h

theorem writeOptionalAdditionalData_error {optionalPdu : ECallOptionalPdu} {status : Status}
    (h : writeOptionalAdditionalData optionalPdu = .error status) : status = .invalidParam := by
  have hoid : ∀ s, writeOid optionalPdu = .error s → s = .invalidParam := by
    intro s hs
    unfold writeOid at hs
    split at hs
    · simp only at hs
      split at hs
      · exact (Except.error.inj hs).symm
      · cases hs
    · exact (Except.error.inj hs).symm
  have hdata : ∀ s, writeOptionalData optionalPdu = .error s → s = .invalidParam := by
    intro s hs
    unfold writeOptionalData at hs
    split at hs
    · split at hs
      · exact (Except.error.inj hs).symm
      · simp only at hs
        split at hs
        · exact (Except.error.inj hs).symm
        · cases hs
    · exact (Except.error.inj hs).symm
  unfold writeOptionalAdditionalData at h
  cases ho : writeOid optionalPdu with
  | error s =>
    rw [ho] at h
    exact hoid status (ho.trans h)
  | ok oid =>
    cases hd : writeOptionalData optionalPdu with
    | error s =>
      rw [ho, hd] at h
      exact hdata status (hd.trans h)
    | ok oad =>
      rw [ho, hd] at h
      cases h

theorem length_additionalData (optionalPdu : ECallOptionalPdu) :
    (additionalData optionalPdu).length =
      8 + 8 * (encodedOid optionalPdu.oid).length + (8 + 4 * optionalPdu.data.length) := by
  simp [additionalData, length_flatMap_of_const (length_signed 8)]
  ring

/-- The writers of the additional data agree with the function that counts its bits. -/
theorem additionalDataBits_of_ok {optionalPdu : ECallOptionalPdu}
    (h : AdditionalDataOk optionalPdu) :
    additionalDataBits optionalPdu = some (additionalData optionalPdu).length := by
  have hlong : ¬ maxOadLength < optionalPdu.data.length / 2 := not_lt.mpr h.bounded
  have henc : (encodedOid optionalPdu.oid).length * 8 ≠ 0 := by
    have := h.encoded
    omega
  unfold additionalDataBits
  simp only [h.oid, henc, h.data, h.even, hlong, ne_eq, not_false_eq_true, ↓reduceIte,
    not_true_eq_false, length_additionalData, Option.some.injEq]
  have := h.even
  omega

theorem length_msdPdu (d : ECallMsdData) (pduSize : Nat) (additional : List Bool) :
    (msdPdu d pduSize additional).length =
      16 + (writeOptionals d).length + 8 + (writeControl d).length +
        6 * vinCharacters d.vehicleIdentificationNumber + 15 + 32 + 64 + 8 +
        (writeRecent d).length + additional.length := by
  simp [msdPdu, length_writeVehicleIdentification, length_writeVehiclePropulsionStorage,
    writeVehicleLocation]
  omega

/-! ## Success -/

/-- The additional data of a message. -/
def additionalOf (d : ECallMsdData) : List Bool :=
  if d.optionals.optionalDataPresent then additionalData d.optionalPdu else []

/-- The bits the message has according to `calculateMsdMessageLength`. -/
def countedBits (d : ECallMsdData) : Nat :=
  (if d.msdVersion = 2 then
    msdVersionTwoMandatoryFieldBits + bitsIf d.optionals.recentVehicleLocationN1Present 20 +
      bitsIf d.optionals.recentVehicleLocationN2Present 20
  else msdVersionThreeMandatoryFieldBits) +
    bitsIf d.optionals.numberOfPassengersPresent 8 + (additionalOf d).length

/-- Octets needed for some bits. -/
def octetsFor (bits : Nat) : Nat := (bits + 7) / 8

/-- The fields of the message, without the zeros behind them. -/
def content (d : ECallMsdData) : List Bool := msdPdu d (octetsFor (countedBits d)) (additionalOf d)

/-- What holds of data on which the encoder succeeds. -/
structure Encodes (d : ECallMsdData) (pdu : List Nat) : Prop where
  version : d.msdVersion = 2 ∨ d.msdVersion = 3
  locations : d.msdVersion = 3 →
    d.optionals.recentVehicleLocationN1Present = true ∧
      d.optionals.recentVehicleLocationN2Present = true
  additional : d.optionals.optionalDataPresent = true → AdditionalDataOk d.optionalPdu
  pdu_eq : pdu = toOctets (content d ++ padding (content d))
  bounded : pdu.length ≤ msdPduSize

theorem roundUp_eq (bits : Nat) :
    (if bits % 8 ≠ 0 then bits + 8 - bits % 8 else bits) / 8 = octetsFor bits := by
  unfold octetsFor
  split <;> omega

theorem calculateMsdMessageLength_eq {d : ECallMsdData}
    (hv : d.msdVersion = 2 ∨ d.msdVersion = 3)
    (ha : d.optionals.optionalDataPresent = true → AdditionalDataOk d.optionalPdu) :
    calculateMsdMessageLength d = some (octetsFor (countedBits d)) := by
  have hadd : (if d.optionals.optionalDataPresent then additionalDataBits d.optionalPdu
      else some 0) = some (additionalOf d).length := by
    unfold additionalOf
    split
    · rename_i hp
      exact additionalDataBits_of_ok (ha hp)
    · rfl
  unfold calculateMsdMessageLength
  simp only [hadd, Option.map_some, Option.some.injEq, roundUp_eq, countedBits, bitsIf]
  congr 1
  rcases hv with hv | hv
  · simp only [hv, ↓reduceIte]
    ring
  · simp only [hv, show ¬ (3 : BitVec 8) = 2 by decide, ↓reduceIte, Nat.add_zero]

theorem encodes_of_success {d : ECallMsdData} {out pdu : List Nat}
    (h : generateECallMsd d out = (.success, pdu)) : Encodes d pdu := by
  unfold generateECallMsd at h
  split at h
  · cases h
  rename_i hversion
  have hv : d.msdVersion = 2 ∨ d.msdVersion = 3 := by
    by_contra hnot
    exact hversion (not_or.mp hnot)
  split at h
  · cases h
  rename_i pduSize hsize
  split at h
  · cases h
  split at h
  · cases h
  split at h
  · cases h
  rename_i hlocations
  split at h
  · rename_i status hadd
    split at hadd
    · rw [writeOptionalAdditionalData_error hadd] at h
      cases h
    · cases hadd
  · rename_i additional hadd
    have hok : d.optionals.optionalDataPresent = true → AdditionalDataOk d.optionalPdu := by
      intro hpresent
      rw [if_pos hpresent] at hadd
      exact (writeOptionalAdditionalData_ok hadd).1
    have hadditional : additional = additionalOf d := by
      unfold additionalOf
      split at hadd
      · rename_i hpresent
        rw [if_pos hpresent]
        exact (writeOptionalAdditionalData_ok hadd).2
      · rename_i hpresent
        rw [if_neg hpresent]
        exact (Except.ok.inj hadd).symm
    rw [calculateMsdMessageLength_eq hv hok, Option.some.injEq] at hsize
    subst hadditional hsize
    simp only at h
    split at h
    · cases h
    · rename_i hbounded
      obtain ⟨-, rfl⟩ := Prod.mk.inj h
      refine ⟨hv, fun h3 => ?_, hok, rfl, not_lt.mp hbounded⟩
      simpa [h3] using hlocations

/-! ## The length octet -/

/-- The bits behind the length octet. -/
def writtenBits (d : ECallMsdData) : Nat :=
  (if d.msdVersion = 2 then 141 + bitsIf d.optionals.recentVehicleLocationN1Present 20 +
    bitsIf d.optionals.recentVehicleLocationN2Present 20 else 180) +
    6 * vinCharacters d.vehicleIdentificationNumber +
    bitsIf d.optionals.numberOfPassengersPresent 8 + (additionalOf d).length

theorem length_content {d : ECallMsdData} (hv : d.msdVersion = 2 ∨ d.msdVersion = 3) :
    (content d).length = 16 + writtenBits d := by
  rw [content, length_msdPdu, length_writeOptionals, length_writeControl, length_writeRecent,
    writtenBits]
  rcases hv with hv | hv
  · simp only [hv, ↓reduceIte, show ¬ (2 : BitVec 8) = 3 by decide]
    omega
  · simp only [hv, ↓reduceIte, show ¬ (3 : BitVec 8) = 2 by decide]
    omega

theorem length_add_padding (bits : List Bool) :
    (bits ++ padding bits).length = 8 * octetsFor bits.length := by
  simp only [padding, octetsFor, List.length_append, List.length_replicate]
  omega

namespace Encodes

variable {d : ECallMsdData} {pdu : List Nat} (h : Encodes d pdu)

include h

theorem octetBits_eq : octetBits pdu = content d ++ padding (content d) := by
  rw [h.pdu_eq]
  refine (octetBits_toOctets ?_).1
  rw [length_add_padding]
  omega

theorem length_eq : pdu.length = 2 + octetsFor (writtenBits d) := by
  have hlen := congrArg List.length h.octetBits_eq
  rw [length_octetBits, length_add_padding, length_content h.version] at hlen
  unfold octetsFor at hlen ⊢
  omega

theorem getElem_one : pdu[1]? = some (octetsFor (countedBits d) % 256) := by
  have hsplit : content d ++ padding (content d) =
      toBits 8 d.msdVersion.toNat ++ (toBits 8 (octetsFor (countedBits d)) ++
        ((content d).drop 16 ++ padding (content d))) := by
    have hhead : content d = toBits 8 d.msdVersion.toNat ++
        (toBits 8 (octetsFor (countedBits d)) ++ (content d).drop 16) := by
      conv_rhs => rw [content, msdPdu]
      conv_lhs => rw [content, msdPdu]
      simp [List.append_assoc, List.drop_append]
    have happend := congrArg (· ++ padding (content d)) hhead
    simpa only [List.append_assoc] using happend
  rw [h.pdu_eq, hsplit, toOctets_append (length_toBits _ _), toOctets_append (length_toBits _ _)]
  simp [ofBits_toBits]

end Encodes

/-- The frame of a message: the length octet counts the octets behind it, the message fits into
140 octets, and what follows its fields is less than an octet of zeros. -/
structure Framed (d : ECallMsdData) (pdu : List Nat) : Prop where
  length : pdu[1]? = some (pdu.length - 2)
  bounded : pdu.length ≤ 140
  zeros : ∃ k < 8, octetBits pdu = content d ++ List.replicate k false

/-- The characters written fill the space set aside: 17 of them, or one less where the recent
locations leave half an octet, or one more in version 3. -/
def VinFits (d : ECallMsdData) : Prop :=
  vinCharacters d.vehicleIdentificationNumber = 17 ∨
    (d.msdVersion = 2 ∧ vinCharacters d.vehicleIdentificationNumber = 16 ∧
      d.optionals.recentVehicleLocationN1Present ≠ d.optionals.recentVehicleLocationN2Present) ∨
    (d.msdVersion = 3 ∧ vinCharacters d.vehicleIdentificationNumber = 18)

theorem octetsFor_eq_iff {d : ECallMsdData} (hv : d.msdVersion = 2 ∨ d.msdVersion = 3)
    (hadd : (additionalOf d).length % 8 = 0) :
    octetsFor (countedBits d) = octetsFor (writtenBits d) ↔ VinFits d := by
  obtain ⟨k, hk⟩ : ∃ k, (additionalOf d).length = 8 * k := 
    ⟨(additionalOf d).length / 8, by omega⟩
  unfold octetsFor countedBits writtenBits VinFits bitsIf
  rw [hk]
  rcases hv with hv | hv
  · simp only [hv, ↓reduceIte, msdVersionTwoMandatoryFieldBits, show ¬ (2 : BitVec 8) = 3 by decide,
      true_and, false_and, or_false]
    cases d.optionals.recentVehicleLocationN1Present <;>
      cases d.optionals.recentVehicleLocationN2Present <;>
      cases d.optionals.numberOfPassengersPresent <;> simp <;> omega
  · simp only [hv, ↓reduceIte, msdVersionThreeMandatoryFieldBits,
      show ¬ (3 : BitVec 8) = 2 by decide, true_and, false_and, false_or]
    cases d.optionals.numberOfPassengersPresent <;> simp <;> omega

/-- Where the encoder succeeds, the frame is right exactly when the vehicle identification number
fills its space. -/
theorem framed_iff (d : ECallMsdData) (out pdu : List Nat)
    (h : generateECallMsd d out = (.success, pdu)) : Framed d pdu ↔ VinFits d := by
  have henc := encodes_of_success h
  have hlen := henc.length_eq
  have hbound := henc.bounded
  have hadd : (additionalOf d).length % 8 = 0 := by
    unfold additionalOf
    split
    · rename_i hp
      have := (henc.additional hp).even
      rw [length_additionalData]
      omega
    · rfl
  -- the counted length is within 36 octets of the written one, so it fits into its octet
  have hsmall : octetsFor (countedBits d) < 256 := by
    unfold msdPduSize at hbound
    unfold octetsFor countedBits writtenBits msdVersionTwoMandatoryFieldBits
      msdVersionThreeMandatoryFieldBits at *
    rcases henc.version with hv | hv
    · simp only [hv, ↓reduceIte] at *
      omega
    · simp only [hv, show ¬ (3 : BitVec 8) = 2 by decide, ↓reduceIte] at *
      omega
  have hkey : pdu[1]? = some (pdu.length - 2) ↔ VinFits d := by
    rw [henc.getElem_one, hlen, Nat.mod_eq_of_lt hsmall, Option.some.injEq,
      ← octetsFor_eq_iff henc.version hadd]
    omega
  constructor
  · intro hf
    exact hkey.mp hf.length
  · intro hfits
    refine ⟨hkey.mpr hfits, hbound, (8 - (content d).length % 8) % 8, by omega, ?_⟩
    exact henc.octetBits_eq

/-- The data a client starts from. -/
def defaultData : ECallMsdData where
  optionals := ⟨false, false, false, false⟩
  messageIdentifier := 1
  control := ⟨false, false, false, 0⟩
  vehicleIdentificationNumber := ⟨[], [], [], []⟩
  vehiclePropulsionStorage := ⟨false, false, false, false, false, false, false⟩
  timestamp := 0
  vehicleLocation := ⟨0, 0⟩
  vehicleDirection := 0
  recentVehicleLocationN1 := ⟨0, 0⟩
  recentVehicleLocationN2 := ⟨0, 0⟩
  numberOfPassengers := 0
  optionalPdu := ⟨[], []⟩
  msdVersion := 2

/-- The same with a vehicle identification number, `WM9VDSVDSYA123456`. -/
def dataWithVin : ECallMsdData :=
  { defaultData with
    vehicleIdentificationNumber :=
      ⟨[87, 77, 57], [86, 68, 83, 86, 68, 83], [89], [65, 49, 50, 51, 52, 53, 54]⟩ }

theorem framed_dataWithVin :
    (generateECallMsd dataWithVin []).1 = .success ∧ VinFits dataWithVin ∧
      Framed dataWithVin (generateECallMsd dataWithVin []).2 := by
  have hsuccess : (generateECallMsd dataWithVin []).1 = .success := by decide +kernel
  have hfits : VinFits dataWithVin := .inl (by decide)
  have hrun : generateECallMsd dataWithVin [] =
      (.success, (generateECallMsd dataWithVin []).2) := by
    rw [← hsuccess]
  exact ⟨hsuccess, hfits, (framed_iff dataWithVin [] _ hrun).mpr hfits⟩

/-- Without a vehicle identification number the length octet says 31, and 18 octets follow. -/
theorem not_framed_defaultData :
    (generateECallMsd defaultData []).1 = .success ∧
      ¬ Framed defaultData (generateECallMsd defaultData []).2 := by
  refine ⟨by decide +kernel, fun h => ?_⟩
  have hlength := h.length
  revert hlength
  decide +kernel

end SatComm.ECall
