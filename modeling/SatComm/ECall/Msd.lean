import SatComm.Bits.Octets
import SatComm.ECall.Oid

/-!
# The minimum set of data

`ECallMsd::generateECallMsd` writes the fields of an `ECallMsdData` as a string of bits, fills the
last octet with zeros and turns the string into octets. The length in the second octet is
computed beforehand, from constants and flags, by `calculateMsdMessageLength`. A writer is
modelled by the bits it appends.
-/

namespace SatComm.ECall

open Bits

/-! ## The data -/

structure ECallMsdOptionals where
  optionalDataPresent : Bool
  recentVehicleLocationN1Present : Bool
  recentVehicleLocationN2Present : Bool
  numberOfPassengersPresent : Bool
deriving DecidableEq, Repr

/-- `vehicleType` is a bit-field of five bits. -/
structure ECallMsdControlBits where
  automaticActivation : Bool
  testCall : Bool
  positionCanBeTrusted : Bool
  vehicleType : BitVec 5
deriving DecidableEq, Repr

structure ECallVehicleIdentificationNumber where
  isowmi : Text
  isovds : Text
  isovisModelyear : Text
  isovisSeqPlant : Text
deriving DecidableEq, Repr

structure ECallVehiclePropulsionStorageType where
  gasolineTankPresent : Bool
  dieselTankPresent : Bool
  compressedNaturalGas : Bool
  liquidPropaneGas : Bool
  electricEnergyStorage : Bool
  hydrogenStorage : Bool
  otherStorage : Bool
deriving DecidableEq, Repr

/-- Both are `int32_t`. -/
structure ECallVehicleLocation where
  positionLatitude : BitVec 32
  positionLongitude : BitVec 32
deriving DecidableEq, Repr

/-- Both are `int16_t`. -/
structure ECallVehicleLocationDelta where
  latitudeDelta : BitVec 16
  longitudeDelta : BitVec 16
deriving DecidableEq, Repr

structure ECallOptionalPdu where
  oid : Text
  data : List UInt8
deriving DecidableEq, Repr

structure ECallMsdData where
  optionals : ECallMsdOptionals
  messageIdentifier : BitVec 8
  control : ECallMsdControlBits
  vehicleIdentificationNumber : ECallVehicleIdentificationNumber
  vehiclePropulsionStorage : ECallVehiclePropulsionStorageType
  timestamp : BitVec 32
  vehicleLocation : ECallVehicleLocation
  vehicleDirection : BitVec 8
  recentVehicleLocationN1 : ECallVehicleLocationDelta
  recentVehicleLocationN2 : ECallVehicleLocationDelta
  numberOfPassengers : BitVec 8
  optionalPdu : ECallOptionalPdu
  msdVersion : BitVec 8
deriving DecidableEq, Repr

/-- `telux::common::Status`, as far as it is used here. -/
inductive Status
  | success
  | failed
  | invalidParam
deriving DecidableEq, Repr

/-! ## The writers -/

/-- `writeMsdPdu(std::bitset<1>(flag))`. -/
def flag (b : Bool) : List Bool := toBits 1 b.toNat

/-- `writeMsdPdu(std::bitset<w>(value))` for a signed value. -/
def signed (w : Nat) (value : Int) : List Bool := toBits w (value % 2 ^ w).toNat

/-- The conversion of `writePrintableString`; other characters become `0`. -/
def convertChar (c : UInt8) : Nat :=
  if 48 ≤ c ∧ c ≤ 57 then c.toNat - 48
  else if 65 ≤ c ∧ c ≤ 72 then c.toNat - 55
  else if 74 ≤ c ∧ c ≤ 78 then c.toNat - 56
  else if c = 80 then c.toNat - 57
  else if 82 ≤ c ∧ c ≤ 90 then c.toNat - 58
  else 0

/-- `ECallMsd::writePrintableString`: four bits a character in optional data, six in the vehicle
identification number. -/
def writePrintableString (input : Text) (optionalData : Bool) : List Bool :=
  input.flatMap fun c => toBits (if optionalData then 4 else 6) (convertChar c)

/-- `ECallMsd::writeVehicleIdentification`: a part of the wrong length ends it. -/
def writeVehicleIdentification (vin : ECallVehicleIdentificationNumber) : List Bool :=
  writePrintableString vin.isowmi false ++
    if vin.isovds.length ≠ 6 then []
    else writePrintableString vin.isovds false ++
      if vin.isovisModelyear.length ≠ 1 then []
      else writePrintableString vin.isovisModelyear false ++
        if vin.isovisSeqPlant.length ≠ 7 then []
        else writePrintableString vin.isovisSeqPlant false

def noOfStorageType : Nat := 127

/-- `ECallMsd::writeVehiclePropulsionStorage`. -/
def writeVehiclePropulsionStorage (storage : ECallVehiclePropulsionStorageType) : List Bool :=
  toBits 1 0 ++ toBits 7 noOfStorageType ++ flag storage.gasolineTankPresent ++
    flag storage.dieselTankPresent ++ flag storage.compressedNaturalGas ++
    flag storage.liquidPropaneGas ++ flag storage.electricEnergyStorage ++
    flag storage.hydrogenStorage ++ flag storage.otherStorage

/-- `ECallMsd::writeVehicleLocationDelta`. -/
def writeVehicleLocationDelta (delta : ECallVehicleLocationDelta) : List Bool :=
  signed 10 (delta.latitudeDelta.toInt + 512) ++ signed 10 (delta.longitudeDelta.toInt + 512)

def encodedOid (oid : Text) : List Int := uperEncodingForOctets (convertOidToOctets oid)

/-- `ECallMsd::writeOid`. -/
def writeOid (optionalPdu : ECallOptionalPdu) : Except Status (List Bool) :=
  if optionalPdu.oid ≠ [] then
    let encoded := encodedOid optionalPdu.oid
    if encoded.length = 0 then .error .invalidParam
    else .ok (toBits 8 encoded.length ++ encoded.flatMap (signed 8))
  else .error .invalidParam

def maxOadLength : Nat := 94

/-- `ECallMsd::writeOptionalData`. -/
def writeOptionalData (optionalPdu : ECallOptionalPdu) : Except Status (List Bool) :=
  if optionalPdu.data ≠ [] then
    if optionalPdu.data.length % 2 ≠ 0 then .error .invalidParam
    else
      let dataLen := optionalPdu.data.length / 2
      if maxOadLength < dataLen then .error .invalidParam
      else .ok (toBits 8 dataLen ++ writePrintableString optionalPdu.data true)
  else .error .invalidParam

/-- `ECallMsd::writeOptionalAdditionalData`. -/
def writeOptionalAdditionalData (optionalPdu : ECallOptionalPdu) : Except Status (List Bool) := do
  let oid ← writeOid optionalPdu
  let oad ← writeOptionalData optionalPdu
  return oid ++ oad

/-! ## The length octet -/

def msdVersionTwoMandatoryFieldBits : Nat := 243

def msdVersionThreeMandatoryFieldBits : Nat := 281

/-- The bits of the optional additional data, `none` where `calculateMsdMessageLength` returns
`INVALID`. -/
def additionalDataBits (optionalPdu : ECallOptionalPdu) : Option Nat :=
  if optionalPdu.oid ≠ [] then
    let oidLen := (encodedOid optionalPdu.oid).length * 8
    if oidLen = 0 then none
    else if optionalPdu.data ≠ [] then
      if optionalPdu.data.length % 2 ≠ 0 then none
      else
        let length := optionalPdu.data.length / 2
        if maxOadLength < length then none else some (8 + oidLen + (8 + length * 8))
    else none
  else none

/-- `ECallMsd::calculateMsdMessageLength`, in octets; `none` is `INVALID`. -/
def calculateMsdMessageLength (d : ECallMsdData) : Option Nat :=
  let mandatory :=
    if d.msdVersion = 2 then msdVersionTwoMandatoryFieldBits
    else if d.msdVersion = 3 then msdVersionThreeMandatoryFieldBits
    else 0
  let locations :=
    if d.msdVersion = 2 then
      (if d.optionals.recentVehicleLocationN1Present then 20 else 0) +
        if d.optionals.recentVehicleLocationN2Present then 20 else 0
    else 0
  let passengers := if d.optionals.numberOfPassengersPresent then 8 else 0
  let additional :=
    if d.optionals.optionalDataPresent then additionalDataBits d.optionalPdu else some 0
  additional.map fun additional =>
    let msdBitsLength := mandatory + locations + passengers + additional
    let leftOverBits := msdBitsLength % 8
    (if leftOverBits ≠ 0 then msdBitsLength + 8 - leftOverBits else msdBitsLength) / 8

/-! ## The message -/

/-- The presence flags and extension markers in front. -/
def writeOptionals (d : ECallMsdData) : List Bool :=
  toBits 1 0 ++ flag d.optionals.optionalDataPresent ++ toBits 1 0 ++
    (if d.msdVersion = 2 then
      flag d.optionals.recentVehicleLocationN1Present ++
        flag d.optionals.recentVehicleLocationN2Present
    else []) ++
    flag d.optionals.numberOfPassengersPresent

/-- The control bits; version 3 has an extension marker before the vehicle type. -/
def writeControl (d : ECallMsdData) : List Bool :=
  flag d.control.automaticActivation ++ flag d.control.testCall ++
    flag d.control.positionCanBeTrusted ++ (if d.msdVersion = 3 then toBits 1 0 else []) ++
    toBits 5 d.control.vehicleType.toNat

/-- The position, shifted to be unsigned. -/
def writeVehicleLocation (location : ECallVehicleLocation) : List Bool :=
  signed 32 (location.positionLatitude.toInt + 2147483648) ++
    signed 32 (location.positionLongitude.toInt + 2147483648)

/-- The recent locations and the number of passengers. -/
def writeRecent (d : ECallMsdData) : List Bool :=
  (if d.optionals.recentVehicleLocationN1Present ∨ d.msdVersion = 3 then
    writeVehicleLocationDelta d.recentVehicleLocationN1
  else []) ++
    (if d.optionals.recentVehicleLocationN2Present ∨ d.msdVersion = 3 then
      writeVehicleLocationDelta d.recentVehicleLocationN2
    else []) ++
    if d.optionals.numberOfPassengersPresent then toBits 8 d.numberOfPassengers.toNat else []

/-- The bits of a message, with the length octet and the additional data given. -/
def msdPdu (d : ECallMsdData) (pduSize : Nat) (additional : List Bool) : List Bool :=
  toBits 8 d.msdVersion.toNat ++ toBits 8 pduSize ++ writeOptionals d ++
    toBits 8 d.messageIdentifier.toNat ++ writeControl d ++
    writeVehicleIdentification d.vehicleIdentificationNumber ++
    writeVehiclePropulsionStorage d.vehiclePropulsionStorage ++ toBits 32 d.timestamp.toNat ++
    writeVehicleLocation d.vehicleLocation ++ toBits 8 d.vehicleDirection.toNat ++
    writeRecent d ++ additional

/-- Zeros up to the next octet. -/
def padding (bits : List Bool) : List Bool := List.replicate ((8 - bits.length % 8) % 8) false

/-- The loop that turns eight bits at a time into an octet. -/
def toOctets (bits : List Bool) : List Nat :=
  (List.range ((bits.length + 7) / 8)).map fun i => ofBits ((bits.drop (8 * i)).take 8)

def msdPduSize : Nat := 140

/-- `ECallMsd::generateECallMsd`: the status, and the output vector afterwards. -/
def generateECallMsd (d : ECallMsdData) (pdu : List Nat) : Status × List Nat :=
  if d.msdVersion ≠ 2 ∧ d.msdVersion ≠ 3 then (.invalidParam, pdu)
  else
    match calculateMsdMessageLength d with
    | none => (.failed, pdu)
    | some pduSize =>
      if d.msdVersion = 2 ∧ pduSize < msdVersionTwoMandatoryFieldBits / 8 then (.failed, pdu)
      else if d.msdVersion = 3 ∧ pduSize < msdVersionThreeMandatoryFieldBits / 8 then
        (.failed, pdu)
      else if d.msdVersion = 3 ∧ (!d.optionals.recentVehicleLocationN1Present ∨
          !d.optionals.recentVehicleLocationN2Present) then (.invalidParam, pdu)
      else
        match if d.optionals.optionalDataPresent then writeOptionalAdditionalData d.optionalPdu
          else .ok [] with
        | .error status => (status, pdu)
        | .ok additional =>
          let bits := msdPdu d pduSize additional
          let pdu := toOctets (bits ++ padding bits)
          if msdPduSize < pdu.length then (.failed, pdu) else (.success, pdu)

end SatComm.ECall
