import SatComm.J2735.Bsm

/-!
# `decode_as_bsm`

The core of the message is parsed word by word, thirty-six bytes for a length of at least
`MIN_BSM_CORE_OCTETS`, and Part II field by field. Some of the Part II fields are preceded by a
comparison of `last_byte_p - p8` with the bytes they need; most are not.

The model covers what the code computes, not what it prints. A run that leaves through an error
label returns `-1`; what it leaves half filled in `BSM_p` is not part of the model. An absent
optional field keeps the value that `BSM_p` had.
-/

namespace SatComm.J2735

open Bits Asnbuf Reader

/-! ## The safety extension -/

def readPosAccuracy : Reader PosAccuracy := do
  let semiMajor ← bits 8
  let semiMinor ← bits 8
  let orientation ← bits 16
  pure ⟨semiMajor, semiMinor, orientation⟩

/-- A timezone offset above `J2735_DOFFSET_MAX` is taken as that. -/
def readOffset : Reader Int := do
  let n ← bits 11
  pure (if (n : Int) - 840 ≤ 840 then (n : Int) - 840 else 840)

def readDDateTime (old : DDateTime) : Reader DDateTime := do
  let opts ← bits 7
  let year ← optional (opts &&& 0x40 ≠ 0) old.year (bits 12)
  let month ← optional (opts &&& 0x20 ≠ 0) old.month (bits 4)
  let day ← optional (opts &&& 0x10 ≠ 0) old.day (bits 5)
  let hour ← optional (opts &&& 0x8 ≠ 0) old.hour (bits 5)
  let minute ← optional (opts &&& 0x4 ≠ 0) old.minute (bits 6)
  let second ← optional (opts &&& 0x2 ≠ 0) old.second (bits 16)
  let offset ← optional (opts &&& 0x1 ≠ 0) old.offset readOffset
  pure ⟨opts, year, month, day, hour, minute, second, offset⟩

/-- A field with an encoding offset, stored to an `int`. -/
def readSigned (n : Nat) (hn : 0 < n ∧ n ≤ 32) (offset : Int) : Reader Int := do
  let raw ← bits n hn
  pure (withOffset raw offset)

def readPosConfidenceSet : Reader PosConfidenceSet := do
  let xy ← bits 4
  let elevation ← bits 4
  pure ⟨xy, elevation⟩

def readMotionConfidenceSet : Reader MotionConfidenceSet := do
  let heading ← bits 3
  let speed ← bits 3
  let throttle ← bits 2
  pure ⟨heading, speed, throttle⟩

def readInitialPosition (old : FullPositionVector) : Reader FullPositionVector := do
  let _isExtended ← bits 1
  let opts ← bits 8
  let utcTime ← optional (opts &&& 0x80 ≠ 0) old.utcTime (readDDateTime old.utcTime)
  let lon ← readSigned 32 (by decide) (-1799999999)
  let lat ← readSigned 31 (by decide) (-900000000)
  let elevation ← optional (opts &&& 0x40 ≠ 0) old.elevation (readSigned 16 (by decide) (-4096))
  let heading ← optional (opts &&& 0x20 ≠ 0) old.heading (bits 15)
  let speed ← optional (opts &&& 0x10 ≠ 0) old.speed (bits 13)
  let posAccuracy ← optional (opts &&& 0x8 ≠ 0) old.posAccuracy readPosAccuracy
  let timeConfidence ← optional (opts &&& 0x4 ≠ 0) old.timeConfidence (bits 6)
  let posConfidence ← optional (opts &&& 0x2 ≠ 0) old.posConfidence readPosConfidenceSet
  let motionConfidenceSet ←
    optional (opts &&& 0x1 ≠ 0) old.motionConfidenceSet readMotionConfidenceSet
  pure ⟨opts, utcTime, lon, lat, elevation, heading, speed, posAccuracy, timeConfidence,
    posConfidence, motionConfidenceSet⟩

/-- The heading of a crumb: whether it is available, and its value if it is. -/
def readCoarseHeading (old : Nat) : Reader (Bool × Nat) := do
  let tmp ← bits 8
  pure (if tmp < 240 then (true, tmp * 1500) else (false, old))

def readCrumb (old : PhPoint) : Reader PhPoint := do
  let _isExtended ← bits 1
  let opts ← bits 3
  let latOffset ← readSigned 18 (by decide) (-131072)
  let lonOffset ← readSigned 18 (by decide) (-131072)
  let eleOffset ← readSigned 12 (by decide) (-2048)
  let time ← bits 16
  let speed ← optional (opts &&& 0x4 ≠ 0) old.speed (bits 13)
  let accy ← optional (opts &&& 0x2 ≠ 0) old.accy readPosAccuracy
  let heading ← optional (opts &&& 0x1 ≠ 0) (false, old.headingMicrodegrees)
    (readCoarseHeading old.headingMicrodegrees)
  pure ⟨opts, latOffset, lonOffset, eleOffset, 10 * (time + 1), speed, accy, heading.2, heading.1⟩

/-- The members of an array that a loop has set. -/
def setArray {α : Type} (old : Nat → α) (new : List α) (i : Nat) : α := new.getD i (old i)

/-- The path history and its option bits. More than 23 crumbs are refused. -/
def readPathHistory (old : PathHistory) : Reader (Nat × PathHistory) := do
  let _isExtended ← bits 1
  let opts ← bits 2
  let initialPosition ← optional (opts &&& 0x2 ≠ 0) old.initialPosition
    (readInitialPosition old.initialPosition)
  let gnssStatus ← optional (opts &&& 0x1 ≠ 0) old.gnssStatus (bits 8)
  let n ← bits 5
  let sequenceLen := n + 1
  if 23 < sequenceLen then stop
  else
    let crumbs ← forEach (fun i => readCrumb (old.phCrumb i)) (List.range sequenceLen)
    pure (opts, ⟨initialPosition, gnssStatus, sequenceLen, setArray old.phCrumb crumbs⟩)

/-- `is_straight` is decided on the encoded radius, before the offset is put back. -/
def readPathPrediction : Reader PathPrediction := do
  let _isExtended ← bits 1
  let radius ← bits 16
  let confidence ← bits 8
  pure ⟨radius == 32767, (radius : Int) - 32767, confidence⟩

def readFlags (n : Nat) (hn : 0 < n ∧ n ≤ 32) : Reader Nat := do
  let _isExtended ← bits 1
  bits n hn

def readSafetyContent (v : BsmValue) : Reader BsmValue := do
  let _isExtended ← bits 1
  let opts ← bits 4
  let events ← optional (opts &&& 0x8 ≠ 0) v.events (readFlags 13 (by decide))
  let ph ← optional (opts &&& 0x4 ≠ 0) (v.phopts, v.ph) (readPathHistory v.ph)
  let pp ← optional (opts &&& 0x2 ≠ 0) v.pp readPathPrediction
  let lights ← optional (opts &&& 0x1 ≠ 0) v.lightsInUse (readFlags 9 (by decide))
  pure { v with
    hasSafetyExtension := true, vehsafeopts := opts, events := events, phopts := ph.1
    ph := ph.2, pp := pp, lightsInUse := lights }

/-- `case PartII_Id_vehicleSafetyExt`. `sequence_len` is unsigned, so neither `0` nor a refused
length gets past the comparison. -/
def readVehicleSafetyExt (v : BsmValue) : Reader BsmValue := do
  needBits 8
  let sequenceLen ← len
  save (done ())
  needBytes (u32 (sequenceLen - 1))
  readSafetyContent v

/-! ## The special extension -/

def readPrivilegedEvents : Reader PrivilegedEvents := do
  let _isExtended ← bits 1
  let sspRights ← bits 5
  let event ← bits 16
  pure ⟨sspRights, event⟩

/-- The emergency details and their option bits. -/
def readEmergencyDetails (old : EmergencyDetails) : Reader (Nat × EmergencyDetails) := do
  let _isExtended ← bits 1
  let opts ← bits 2
  let sspRights ← bits 5
  let sirenUse ← bits 2
  let lightsUse ← bits 3
  let multi ← bits 2
  let events ← optional (opts &&& 0x2 ≠ 0) old.events readPrivilegedEvents
  let responseType ← optional (opts &&& 0x1 ≠ 0) old.responseType (readFlags 3 (by decide))
  pure (opts, ⟨sspRights, sirenUse, lightsUse, multi, events, responseType⟩)

/-- The descriptions of an event, with their number. -/
def readDescriptions (old : EventDescription) : Reader (Nat × (Nat → Nat)) := do
  let n ← bits 3
  let desc ← forEach (fun _ => bits 16) (List.range (n + 1))
  pure (n + 1, setArray old.desc desc)

/-- The description of an event and its option bits. The regional extension has no content. -/
def readEventDescription (old : EventDescription) : Reader (Nat × EventDescription) := do
  let _isExtended ← bits 1
  let opts ← bits 5
  let typeEvent ← bits 16
  let desc ← optional (opts &&& 0x10 ≠ 0) (old.sizeDesc, old.desc) (readDescriptions old)
  let priority ← optional (opts &&& 0x8 ≠ 0) old.priority (bits 8)
  let heading ← optional (opts &&& 0x4 ≠ 0) old.heading (bits 16)
  let extent ← optional (opts &&& 0x2 ≠ 0) old.extent (bits 4)
  pure (opts, ⟨typeEvent, desc.1, desc.2, priority, heading, extent⟩)

/-- A bit is taken for the trailer data, whose content is not supported. -/
def readSpecialContent (v : BsmValue) : Reader BsmValue := do
  let _isExtended ← bits 1
  needBits 3
  let opts ← bits 3
  let ed ← optional (opts &&& 0x4 ≠ 0) (v.edopts, v.vehicleAlerts)
    (readEmergencyDetails v.vehicleAlerts)
  let desc ← optional (opts &&& 0x2 ≠ 0) (v.eventopts, v.description)
    (readEventDescription v.description)
  let _trailer ← optional (opts &&& 0x1 ≠ 0) 0 (bits 1)
  pure { v with
    hasSpecialExtension := true, specvehopts := opts, edopts := ed.1, vehicleAlerts := ed.2
    eventopts := desc.1, description := desc.2 }

/-- `case PartII_Id_specialVehicleExt`. -/
def readSpecialVehicleExt (v : BsmValue) : Reader BsmValue := do
  let _sequenceLen ← len
  save (done ())
  readSpecialContent v

/-! ## The supplemental extension -/

def readBumpers : Reader (Nat × Nat) := do
  needBits 14
  let front ← bits 7
  let rear ← bits 7
  pure (front, rear)

def readHeight : Reader Nat := do
  needBits 7
  let tmp ← bits 7
  pure (tmp * 5)

def readMass : Reader Nat := do
  needBits 8
  let tmp ← bits 8
  pure (vehicleMassDecode tmp)

def readTrailerWeight : Reader Nat := do
  needBits 16
  bits 16

def readVehicleData (old : VehicleData) : Reader VehicleData := do
  needBits 5
  let _isExtended ← bits 1
  let opts ← bits 4
  let height ← optional (opts &&& 0x8 ≠ 0) old.heightCm readHeight
  let bumpers ← optional (opts &&& 0x4 ≠ 0) (old.frontBumperHeightCm, old.rearBumperHeightCm)
    readBumpers
  let mass ← optional (opts &&& 0x2 ≠ 0) old.massKg readMass
  let trailerWeight ← optional (opts &&& 0x1 ≠ 0) old.trailerWeight readTrailerWeight
  pure ⟨opts, height, bumpers.1, bumpers.2, mass, trailerWeight⟩

/-- The options, status and rate of the wipers. -/
def readWipers (old : Weather) : Reader Weather := do
  let opts ← bits 2
  let statusFront ← bits 4
  let rateFront ← bits 7
  let statusRear ← optional (opts &&& 0x2 ≠ 0) old.statusRear (bits 4)
  let rateRear ← optional (opts &&& 0x1 ≠ 0) old.rateRear (bits 7)
  pure { old with
    wiperopts := opts, statusFront := statusFront, rateFront := rateFront
    statusRear := statusRear, rateRear := rateRear }

def readWeatherProbe (old : Weather) : Reader Weather := do
  let _isExtended ← bits 1
  let opts ← bits 3
  let airTemp ← optional (opts &&& 0x4 ≠ 0) old.airTemp (bits 8)
  let airPressure ← optional (opts &&& 0x2 ≠ 0) old.airPressure (bits 8)
  let wipers ← optional (opts &&& 0x1 ≠ 0) old (readWipers old)
  pure { wipers with weatheropts := opts, airTemp := airTemp, airPressure := airPressure }

/-- An option whose content is not supported. -/
def unsupported (c : Prop) [Decidable c] : Reader Unit := optional c () stop

/-- Classification details (`0x100`) and a weather report (`0x40`) are refused where they would
stand, the other unsupported parts at the end. -/
def readSupplementalContent (v : BsmValue) : Reader BsmValue := do
  needBits 11
  let _isExtended ← bits 1
  let opts ← bits 10
  let vehicleClass ← optional (opts &&& 0x200 ≠ 0) v.vehicleClass (bits 8)
  unsupported (opts &&& 0x100 ≠ 0)
  let veh ← optional (opts &&& 0x80 ≠ 0) v.veh (readVehicleData v.veh)
  unsupported (opts &&& 0x40 ≠ 0)
  let weather ← optional (opts &&& 0x20 ≠ 0) v.weather (readWeatherProbe v.weather)
  unsupported (opts &&& 0x1f ≠ 0)
  pure { v with
    hasSupplementalExtension := true, suppvehopts := opts, vehicleClass := vehicleClass
    veh := veh, weather := weather }

/-- `case PartII_Id_supplementalVehicleExt`. -/
def readSupplementalVehicleExt (v : BsmValue) : Reader BsmValue := do
  let _sequenceLen ← len
  save (done ())
  readSupplementalContent v

/-! ## Part II -/

/-- One round of the loop over the extensions. -/
def readExtension (v : BsmValue) : Reader BsmValue := do
  needBits 6
  let id ← bits 6
  let v ←
    if id = 0 then readVehicleSafetyExt v
    else if id = 1 then readSpecialVehicleExt v
    else if id = 2 then readSupplementalVehicleExt v
    else stop
  restore (done v)

def readExtensions : Nat → BsmValue → Reader BsmValue
  | 0, v => pure v
  | n + 1, v => do
    let v ← readExtension v
    readExtensions n v

def readPartII (v : BsmValue) : Reader BsmValue := do
  needBits 3
  let n ← bits 3
  needBytes 1
  readExtensions (n + 1) { v with qtyPartIIExtensions := n + 1 }

/-- What stands in front of the extensions: their number, less one. -/
def readPartIIHeader : Reader Nat := do
  needBits 3
  let n ← bits 3
  needBytes 1
  pure n

/-! ## The core -/

/-- `ntohl(*(uint32_t *)p)`. -/
def word (m : Mem) (p : Nat) : Nat :=
  ((m.byte p <<< 8 ||| m.byte (p + 1)) <<< 8 ||| m.byte (p + 2)) <<< 8 ||| m.byte (p + 3)

/-- The fast parse of the core. The byte behind the ninth word counts only when the message has
it. -/
def decodeCore (m : Mem) (data len : Nat) : Core :=
  let w := fun i => word m (data + 4 * i)
  let lat := (w 1 &&& 0x3f) <<< 25 ||| (w 2 &&& 0xffffff80) >>> 7
  let lon := (w 2 &&& 0x7f) <<< 25 ||| (w 3 &&& 0xffffff80) >>> 7
  let ele := (w 3 &&& 0x7f) <<< 9 ||| (w 4 &&& 0xff800000) >>> 23
  let accLat := (w 6 &&& 0xf) <<< 8 ||| (w 7 &&& 0xff000000) >>> 24
  let lastByte := if 36 < len then (m.byte (data + 36) &&& 0xf8) >>> 3 else 0
  { msgCount := (w 0 &&& 0x1fc00000) >>> 22
    id := (w 0 &&& 0x003fffff) <<< 10 ||| (w 1 &&& 0xffc00000) >>> 22
    secMarkMs := (w 1 &&& 0x003fffc0) >>> 6
    latitude := withOffset lat (-900000000)
    longitude := withOffset lon (-1799999999)
    elevation := withOffset ele (-4096)
    semiMajorAxisAccuracy := (w 4 &&& 0x007f8000) >>> 15
    semiMinorAxisAccuracy := (w 4 &&& 0x7f80) >>> 7
    semiMajorAxisOrientation := (w 4 &&& 0x7f) <<< 9 ||| (w 5 &&& 0xff800000) >>> 23
    transmissionState := (w 5 &&& 0x00700000) >>> 20
    speed := (w 5 &&& 0x000fff80) >>> 7
    headingDegrees := (w 5 &&& 0x7f) <<< 8 ||| (w 6 &&& 0xff000000) >>> 24
    steeringWheelAngle := withOffset ((w 6 &&& 0x00ff0000) >>> 16) (-126)
    accelLon := withOffset ((w 6 &&& 0x0000fff0) >>> 4) (-2000)
    accelLat := withOffset accLat (-2000)
    accelVert := withOffset ((w 7 &&& 0x00ff0000) >>> 16) (-127)
    accelYaw := withOffset (w 7 &&& 0x0000ffff) (-32767)
    brakes := m.byte (data + 32) <<< 8 ||| m.byte (data + 33)
    vehicleWidthCm := (w 8 &&& 0x0001ff80) >>> 7
    vehicleLengthCm := (w 8 &&& 0x7f) <<< 5 ||| lastByte }

/-- `BSM_FAST32_0_EXTENSION_MASK` and the two option bits behind it. -/
def isExtended (m : Mem) (data : Nat) : Prop := word m data &&& 0x80000000 ≠ 0

def announcesPartII (m : Mem) (data : Nat) : Prop := word m data &&& 0x40000000 ≠ 0

def announcesRegional (m : Mem) (data : Nat) : Prop := word m data &&& 0x20000000 ≠ 0

section decidable

variable (m : Mem) (data : Nat)

instance : Decidable (isExtended m data) := inferInstanceAs (Decidable (¬ _))

instance : Decidable (announcesPartII m data) := inferInstanceAs (Decidable (¬ _))

instance : Decidable (announcesRegional m data) := inferInstanceAs (Decidable (¬ _))

end decidable

/-- `BSM_p` behind the core. -/
def withCore (m : Mem) (data len : Nat) (v : BsmValue) : BsmValue :=
  { v with
    core := decodeCore m data len
    hasPartII := announcesPartII m data
    hasRegionalExtensions := announcesRegional m data }

/-! ## The message -/

/-- What comes back: the result, the message unless the result is `-1`, and the addresses that
were looked at. -/
structure Decoded where
  result : Int
  value : Option BsmValue
  seen : List Nat

/-- `decode_as_bsm` for `len_remaining` bytes at `data`. An extended message is not parsed, and
that is no error. -/
def decodeAsBsm (m : Mem) (data lenRemaining : Nat) (v : BsmValue) : Decoded :=
  if lenRemaining < 31 then ⟨-1, none, []⟩
  else if isExtended m data then ⟨0, some v, List.range' data 4⟩
  else
    let lastByteP := data + lenRemaining - 1
    let seen := List.range' data (if data + 36 ≤ lastByteP then 37 else 36)
    let v := withCore m data lenRemaining v
    if v.hasPartII then
      let r := (readPartII v).exec m lastByteP ⟨data + 36, 3⟩ 8
      match r.result with
      | some v => ⟨0, some v, seen ++ r.seen⟩
      | none => ⟨-1, none, seen ++ r.seen⟩
    else ⟨0, some { v with events := 0 }, seen⟩

end SatComm.J2735
