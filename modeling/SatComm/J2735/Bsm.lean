import SatComm.Asnbuf.Reader

/-!
# The basic safety message

`bsm_value_t` holds a message in unpacked form. An `int` that carries a code or a set of option
bits is kept as its 32-bit pattern, one that carries a signed quantity as an integer; an array
is a function of the index. What neither the encoder nor the decoder touches is left out, and so
is `timestamp_ms`, which the decoder computes from the clock.
-/

namespace SatComm.J2735

/-- A signed value as the `uint32_t` that is passed on. -/
def u32 (x : Int) : Nat := (x % 2 ^ 32).toNat

/-- A `uint32_t` stored to an `int`. -/
def s32 (n : Nat) : Int :=
  if n % 2 ^ 32 < 2 ^ 31 then (n % 2 ^ 32 : Nat) else (n % 2 ^ 32 : Nat) - 2 ^ 32

/-- An encoding offset put back, in `uint32_t` arithmetic. -/
def withOffset (raw : Nat) (offset : Int) : Int := s32 (u32 (raw + offset))

theorem u32_of_nonneg {x : Int} (h₀ : 0 ≤ x) (h : x < 2 ^ 32) : (u32 x : Int) = x := by
  unfold u32
  omega

theorem withOffset_u32 {x d : Int} (h₀ : -2 ^ 31 ≤ x) (h : x < 2 ^ 31) :
    withOffset (u32 (x - d)) d = x := by
  unfold withOffset s32 u32
  split <;> omega

structure PosAccuracy where
  semiMajor : Nat
  semiMinor : Nat
  orientation : Nat
deriving DecidableEq, Repr

structure PosConfidenceSet where
  xy : Nat
  elevation : Nat
deriving DecidableEq, Repr

structure MotionConfidenceSet where
  headingConfidence : Nat
  speedConfidence : Nat
  throttleConfidence : Nat
deriving DecidableEq, Repr

structure DDateTime where
  opts : Nat
  year : Nat
  month : Nat
  day : Nat
  hour : Nat
  minute : Nat
  second : Nat
  offset : Int
deriving DecidableEq, Repr

structure FullPositionVector where
  opts : Nat
  utcTime : DDateTime
  lon : Int
  lat : Int
  elevation : Int
  heading : Nat
  speed : Nat
  posAccuracy : PosAccuracy
  timeConfidence : Nat
  posConfidence : PosConfidenceSet
  motionConfidenceSet : MotionConfidenceSet
deriving DecidableEq, Repr

/-- `ph_point_t`. -/
structure PhPoint where
  opts : Nat
  latOffset : Int
  lonOffset : Int
  eleOffset : Int
  timeOffsetMs : Int
  speed : Nat
  accy : PosAccuracy
  headingMicrodegrees : Nat
  headingAvailable : Bool
deriving DecidableEq, Repr

structure PathHistory where
  initialPosition : FullPositionVector
  gnssStatus : Nat
  qtyCrumbs : Nat
  phCrumb : Nat → PhPoint

structure PathPrediction where
  isStraight : Bool
  radius : Int
  confidence : Nat
deriving DecidableEq, Repr

structure PrivilegedEvents where
  sspRights : Nat
  event : Nat
deriving DecidableEq, Repr

structure EmergencyDetails where
  sspRights : Nat
  sirenUse : Nat
  lightsUse : Nat
  multi : Nat
  events : PrivilegedEvents
  responseType : Nat
deriving DecidableEq, Repr

structure EventDescription where
  typeEvent : Nat
  sizeDesc : Nat
  desc : Nat → Nat
  priority : Nat
  heading : Nat
  extent : Nat

/-- `vehicle_data_t`; `opts` is `supplemental_veh_data_options.word`. -/
structure VehicleData where
  opts : Nat
  heightCm : Nat
  frontBumperHeightCm : Nat
  rearBumperHeightCm : Nat
  massKg : Nat
  trailerWeight : Nat
deriving DecidableEq, Repr

/-- The members of `bsm_value_t` that hold the weather probe. -/
structure Weather where
  weatheropts : Nat
  airTemp : Nat
  airPressure : Nat
  wiperopts : Nat
  statusFront : Nat
  rateFront : Nat
  statusRear : Nat
  rateRear : Nat
deriving DecidableEq, Repr

/-- The members of `bsm_value_t` that make up the core of the message. -/
structure Core where
  msgCount : Nat
  id : Nat
  secMarkMs : Nat
  latitude : Int
  longitude : Int
  elevation : Int
  semiMajorAxisAccuracy : Nat
  semiMinorAxisAccuracy : Nat
  semiMajorAxisOrientation : Nat
  transmissionState : Nat
  speed : Nat
  headingDegrees : Nat
  steeringWheelAngle : Int
  accelLon : Int
  accelLat : Int
  accelVert : Int
  accelYaw : Int
  brakes : Nat
  vehicleWidthCm : Nat
  vehicleLengthCm : Nat
deriving DecidableEq, Repr

/-- `bsm_value_t`. -/
structure BsmValue where
  core : Core
  hasPartII : Bool
  qtyPartIIExtensions : Nat
  hasRegionalExtensions : Bool
  hasSafetyExtension : Bool
  hasSpecialExtension : Bool
  hasSupplementalExtension : Bool
  vehsafeopts : Nat
  phopts : Nat
  ph : PathHistory
  pp : PathPrediction
  events : Nat
  lightsInUse : Nat
  specvehopts : Nat
  edopts : Nat
  eventopts : Nat
  vehicleAlerts : EmergencyDetails
  description : EventDescription
  suppvehopts : Nat
  vehicleClass : Nat
  veh : VehicleData
  weather : Weather

/-- What `calloc` hands to the decoder. -/
def BsmValue.zero : BsmValue where
  core := ⟨0, 0, 0, 0, 0, 0, 0, 0, 0, 0, 0, 0, 0, 0, 0, 0, 0, 0, 0, 0⟩
  hasPartII := false
  qtyPartIIExtensions := 0
  hasRegionalExtensions := false
  hasSafetyExtension := false
  hasSpecialExtension := false
  hasSupplementalExtension := false
  vehsafeopts := 0
  phopts := 0
  ph :=
    { initialPosition :=
        ⟨0, ⟨0, 0, 0, 0, 0, 0, 0, 0⟩, 0, 0, 0, 0, 0, ⟨0, 0, 0⟩, 0, ⟨0, 0⟩, ⟨0, 0, 0⟩⟩
      gnssStatus := 0
      qtyCrumbs := 0
      phCrumb := fun _ => ⟨0, 0, 0, 0, 0, 0, ⟨0, 0, 0⟩, 0, false⟩ }
  pp := ⟨false, 0, 0⟩
  events := 0
  lightsInUse := 0
  specvehopts := 0
  edopts := 0
  eventopts := 0
  vehicleAlerts := ⟨0, 0, 0, 0, ⟨0, 0⟩, 0⟩
  description := ⟨0, 0, fun _ => 0, 0, 0, 0⟩
  suppvehopts := 0
  vehicleClass := 0
  veh := ⟨0, 0, 0, 0, 0, 0⟩
  weather := ⟨0, 0, 0, 0, 0, 0, 0, 0⟩

/-! ## The mass scale -/

/-- `VehicleMassDecode`: the `int` it returns, stored to a `uint32_t`. -/
def vehicleMassDecode (n : Nat) : Nat :=
  if n = 255 then u32 (-1)
  else if n = 254 then 170001
  else
    let kg₁ := if 200 < n then 2000 * (n - 200) else 0
    let n := if 200 < n then 200 else n
    let kg₂ := if 80 < n then 500 * (n - 80) else 0
    let n := if 80 < n then 80 else n
    kg₁ + kg₂ + n * 50

/-- `VehicleMassEncode`. C's division takes the small negative differences of the last branch to
`0`. -/
def vehicleMassEncode (massKg : Int) : Nat :=
  if massKg < 0 then 255
  else if 170001 ≤ massKg then 254
  else if massKg ≤ 80 * 50 then massKg.toNat / 50
  else if massKg ≤ 80 * 50 + (200 - 81) * 500 then 80 + (massKg - 80 * 50).toNat / 500
  else 200 + (massKg - (80 * 50 + (200 - 80) * 500)).toNat / 2000

theorem vehicleMassEncode_lt (massKg : Int) : vehicleMassEncode massKg < 2 ^ 8 := by
  unfold vehicleMassEncode
  split_ifs <;> omega

end SatComm.J2735
