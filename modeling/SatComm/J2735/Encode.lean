import SatComm.J2735.Bsm
import SatComm.Asnbuf.Merge

/-!
# `encode_as_bsm`

The core is written word by word, Part II by `asn_ncat_bits` calls whose results nobody looks at:
the calls for one part of the message are given as the list of its fields, in the order of the
source. Each extension is an open type, built in an abuf of its own.

`encodeAsBsm_spec` describes the message that comes out of an encoder that does not take its
error exits.
-/

namespace SatComm.J2735

open Bits Asnbuf Abuf

/-! ## The safety extension -/

def posAccuracyFields (a : PosAccuracy) : List Field :=
  [⟨8, a.semiMajor⟩, ⟨8, a.semiMinor⟩, ⟨16, a.orientation⟩]

/-- The initial position. The UTC time is switched off, the heading is written before and behind
the elevation, and the speed is not written. -/
def initialPositionFields (v : FullPositionVector) : List Field :=
  let opts := v.opts &&& 0x7f
  [⟨1, 0⟩, ⟨8, opts⟩, ⟨32, u32 (v.lon - -1799999999)⟩, ⟨31, u32 (v.lat - -900000000)⟩] ++
    ((if opts &&& 0x20 ≠ 0 then [⟨15, v.heading⟩] else []) ++
    ((if opts &&& 0x40 ≠ 0 then [⟨16, u32 (v.elevation - -4096)⟩] else []) ++
    ((if opts &&& 0x20 ≠ 0 then [⟨15, v.heading⟩] else []) ++
    ((if opts &&& 0x8 ≠ 0 then posAccuracyFields v.posAccuracy else []) ++
    ((if opts &&& 0x4 ≠ 0 then [⟨6, v.timeConfidence⟩] else []) ++
    ((if opts &&& 0x2 ≠ 0 then
      [⟨4, v.posConfidence.xy⟩, ⟨4, v.posConfidence.elevation⟩] else []) ++
    (if opts &&& 0x1 ≠ 0 then
      [⟨3, v.motionConfidenceSet.headingConfidence⟩, ⟨3, v.motionConfidenceSet.speedConfidence⟩,
        ⟨2, v.motionConfidenceSet.throttleConfidence⟩] else [])))))))

/-- The code of a crumb's heading; `240` is `COARSE_HEADING_UNAVAILABLE`. -/
def coarseHeading (v : PhPoint) : Nat :=
  if v.headingAvailable then v.headingMicrodegrees / 1500 else 240

def crumbFields (v : PhPoint) : List Field :=
  [⟨1, 0⟩, ⟨3, v.opts⟩, ⟨18, u32 (v.latOffset - -131072)⟩, ⟨18, u32 (v.lonOffset - -131072)⟩,
    ⟨12, u32 (v.eleOffset - -2048)⟩, ⟨16, u32 ((v.timeOffsetMs - 1).tdiv 10)⟩] ++
    ((if v.opts &&& 0x4 ≠ 0 then [⟨13, v.speed⟩] else []) ++
    ((if v.opts &&& 0x2 ≠ 0 then posAccuracyFields v.accy else []) ++
    (if v.opts &&& 0x1 ≠ 0 then [⟨8, coarseHeading v⟩] else [])))

def pathHistoryFields (phopts : Nat) (v : PathHistory) : List Field :=
  [⟨1, 0⟩, ⟨2, phopts⟩] ++
    ((if phopts &&& 0x2 ≠ 0 then initialPositionFields v.initialPosition else []) ++
    ((if phopts &&& 0x1 ≠ 0 then [⟨8, v.gnssStatus⟩] else []) ++
    (⟨5, u32 ((v.qtyCrumbs : Int) - 1)⟩ ::
      (List.range v.qtyCrumbs).flatMap fun i => crumbFields (v.phCrumb i))))

def pathPredictionFields (v : PathPrediction) : List Field :=
  [⟨1, 0⟩, ⟨16, u32 (v.radius - -32767)⟩, ⟨8, v.confidence⟩]

def safetyFields (v : BsmValue) : List Field :=
  [⟨1, 0⟩, ⟨4, v.vehsafeopts⟩] ++
    ((if v.vehsafeopts &&& 0x8 ≠ 0 then [⟨1, 0⟩, ⟨13, v.events⟩] else []) ++
    ((if v.vehsafeopts &&& 0x4 ≠ 0 then pathHistoryFields v.phopts v.ph else []) ++
    ((if v.vehsafeopts &&& 0x2 ≠ 0 then pathPredictionFields v.pp else []) ++
    (if v.vehsafeopts &&& 0x1 ≠ 0 then [⟨1, 0⟩, ⟨9, v.lightsInUse⟩] else []))))

/-- `build_VehicleSafetyExt`. -/
def buildVehicleSafetyExt (abp : Abuf) (v : BsmValue) : Abuf :=
  (asnPushLen (abufPadToEvenOctet (ncatAll abp (safetyFields v)))).2

/-! ## The special extension -/

/-- The rights of the privileged events are taken from the emergency details. -/
def emergencyDetailsFields (edopts : Nat) (v : EmergencyDetails) : List Field :=
  [⟨1, 0⟩, ⟨2, edopts⟩, ⟨5, v.sspRights⟩, ⟨2, v.sirenUse⟩, ⟨3, v.lightsUse⟩, ⟨2, v.multi⟩] ++
    ((if edopts &&& 0x2 ≠ 0 then [⟨1, 0⟩, ⟨5, v.sspRights⟩, ⟨16, v.events.event⟩] else []) ++
    (if edopts &&& 0x1 ≠ 0 then [⟨1, 0⟩, ⟨3, v.responseType⟩] else []))

def descriptionsFields (v : EventDescription) : List Field :=
  ⟨3, u32 ((v.sizeDesc : Int) - 1)⟩ ::
    (List.range v.sizeDesc).flatMap fun i => [⟨16, v.desc i⟩]

def eventDescriptionFields (eventopts : Nat) (v : EventDescription) : List Field :=
  [⟨1, 0⟩, ⟨5, eventopts⟩, ⟨16, v.typeEvent⟩] ++
    ((if eventopts &&& 0x10 ≠ 0 then descriptionsFields v else []) ++
    ((if eventopts &&& 0x8 ≠ 0 then [⟨8, v.priority⟩] else []) ++
    ((if eventopts &&& 0x4 ≠ 0 then [⟨16, v.heading⟩] else []) ++
    (if eventopts &&& 0x2 ≠ 0 then [⟨4, v.extent⟩] else []))))

/-- Nothing is written for the trailer data. -/
def specialFields (v : BsmValue) : List Field :=
  [⟨1, 0⟩, ⟨3, v.specvehopts⟩] ++
    ((if v.specvehopts &&& 0x4 ≠ 0 then emergencyDetailsFields v.edopts v.vehicleAlerts else []) ++
    (if v.specvehopts &&& 0x2 ≠ 0 then eventDescriptionFields v.eventopts v.description else []))

/-- `build_SpecialExt`. -/
def buildSpecialExt (abp : Abuf) (v : BsmValue) : Abuf :=
  (asnPushLen (abufPadToEvenOctet (ncatAll abp (specialFields v)))).2

/-! ## The supplemental extension -/

def vehicleDataFields (v : VehicleData) : List Field :=
  [⟨1, 0⟩, ⟨4, v.opts⟩] ++
    ((if v.opts &&& 0x8 ≠ 0 then [⟨7, v.heightCm / 5⟩] else []) ++
    ((if v.opts &&& 0x4 ≠ 0 then
      [⟨7, v.frontBumperHeightCm⟩, ⟨7, v.rearBumperHeightCm⟩] else []) ++
    ((if v.opts &&& 0x2 ≠ 0 then [⟨8, vehicleMassEncode (s32 v.massKg)⟩] else []) ++
    (if v.opts &&& 0x1 ≠ 0 then [⟨16, v.trailerWeight⟩] else []))))

def wipersFields (v : Weather) : List Field :=
  [⟨2, v.wiperopts⟩, ⟨4, v.statusFront⟩, ⟨7, v.rateFront⟩] ++
    ((if v.wiperopts &&& 0x2 ≠ 0 then [⟨4, v.statusRear⟩] else []) ++
    (if v.wiperopts &&& 0x1 ≠ 0 then [⟨7, v.rateRear⟩] else []))

def weatherProbeFields (v : Weather) : List Field :=
  [⟨1, 0⟩, ⟨3, v.weatheropts⟩] ++
    ((if v.weatheropts &&& 0x4 ≠ 0 then [⟨8, v.airTemp⟩] else []) ++
    ((if v.weatheropts &&& 0x2 ≠ 0 then [⟨8, v.airPressure⟩] else []) ++
    (if v.weatheropts &&& 0x1 ≠ 0 then wipersFields v else [])))

/-- The fields up to the first option that is not supported: the classification details, the
weather report, or any of the last five. -/
def supplementalFields (v : BsmValue) : List Field :=
  [⟨1, 0⟩, ⟨10, v.suppvehopts⟩] ++
    ((if v.suppvehopts &&& 0x200 ≠ 0 then [⟨8, v.vehicleClass⟩] else []) ++
    (if v.suppvehopts &&& 0x100 ≠ 0 then [] else
      (if v.suppvehopts &&& 0x80 ≠ 0 then vehicleDataFields v.veh else []) ++
      (if v.suppvehopts &&& 0x40 ≠ 0 then [] else
        if v.suppvehopts &&& 0x20 ≠ 0 then weatherProbeFields v.weather else [])))

/-- `build_SupplementalExt`: with an option that is not supported neither padding nor length is
added. -/
def buildSupplementalExt (abp : Abuf) (v : BsmValue) : Abuf :=
  let abp := ncatAll abp (supplementalFields v)
  if v.suppvehopts &&& 0x15f ≠ 0 then abp else (asnPushLen (abufPadToEvenOctet abp)).2

/-! ## The core -/

/-- The nine words of the core, in `uint32_t` arithmetic. -/
def coreWords (v : BsmValue) : List Nat :=
  let c := v.core
  let lat := u32 (c.latitude - -900000000)
  let lon := u32 (c.longitude - -1799999999)
  let ele := u32 (c.elevation - -4096)
  let swa := u32 (c.steeringWheelAngle - -126)
  let accLon := u32 (c.accelLon - -2000)
  let accLat := u32 (c.accelLat - -2000)
  let accVert := u32 (c.accelVert - -127)
  let accYaw := u32 (c.accelYaw - -32767)
  [(if v.hasPartII then 0x40000000 else 0) ||| c.msgCount <<< 22 ||| c.id >>> 10,
    c.id <<< 22 ||| c.secMarkMs <<< 6 ||| lat >>> 25,
    lat <<< 7 ||| lon >>> 25,
    lon <<< 7 ||| ele >>> 9,
    ele <<< 23 ||| c.semiMajorAxisAccuracy <<< 15 ||| c.semiMinorAxisAccuracy <<< 7 |||
      c.semiMajorAxisOrientation >>> 9,
    c.semiMajorAxisOrientation <<< 23 ||| c.transmissionState <<< 20 ||| c.speed <<< 7 |||
      c.headingDegrees >>> 8,
    c.headingDegrees <<< 24 ||| swa <<< 16 ||| accLon <<< 4 ||| accLat >>> 8,
    accLat <<< 24 ||| accVert <<< 16 ||| accYaw,
    c.brakes <<< 16 ||| c.vehicleWidthCm <<< 7 ||| c.vehicleLengthCm >>> 5].map (· % 2 ^ 32)

/-- The octets of a word, as `htonl` orders them. -/
def wordOctets (w : Nat) : List Nat := [w >>> 24 % 256, w >>> 16 % 256, w >>> 8 % 256, w % 256]

/-- `p = abuf_put(bp, n)` and a store of `n` octets to `p`. Without room `p` is `NULL`; the store
through it is not modelled. -/
def putOctets (bp : Abuf) (os : List Nat) : Abuf :=
  match abufPut bp os.length with
  | (some p, bp) => memcpy bp p os
  | (none, bp) => bp

/-- The words, then the five low bits of the vehicle length with three bits left. -/
def encodeCore (bp : Abuf) (v : BsmValue) : Abuf :=
  let bp := (coreWords v).foldl (fun bp w => putOctets bp (wordOctets w)) bp
  let bp := putOctets bp [v.core.vehicleLengthCm <<< 3 % 256]
  bp.withTail (bp.tail - 1) 3

/-! ## The message -/

/-- One extension: its id, and the open type merged behind it. `build` fills the abuf of the
extension. -/
def addExtension (build : Abuf → Abuf) (id : Nat) (bp ext : Abuf) : Abuf × Abuf :=
  let bp := (asnNcatBits bp id 6).2
  let ext := abufReserveHeadspace ext (8 - bp.tailBitsLeft)
  (abufMerge bp (abufTrim (build ext))).2

/-- The safety extension trims the message first, and purges its abuf when it is done. -/
def addSafetyExtension (v : BsmValue) (bp ext : Abuf) : Abuf × Abuf :=
  let bp := (asnNcatBits bp 0 6).2
  let ext := abufReserveHeadspace ext (8 - bp.tailBitsLeft)
  let bp := abufTrim bp
  let merged := (abufMerge bp (abufTrim (buildVehicleSafetyExt ext v))).2
  (merged.1, abufPurge merged.2 20)

/-- The special and the supplemental extension purge their abuf first. -/
def addSpecialExtension (v : BsmValue) (bp ext : Abuf) : Abuf × Abuf :=
  addExtension (buildSpecialExt · v) 1 bp (abufPurge ext 20)

def addSupplementalExtension (v : BsmValue) (bp ext : Abuf) : Abuf × Abuf :=
  addExtension (buildSupplementalExt · v) 2 bp (abufPurge ext 20)

/-- Part II, with `extHead` the block that `abuf_alloc` gets for the extensions. -/
def encodePartII (extHead : Nat) (bp : Abuf) (v : BsmValue) : Option Abuf :=
  (abufAlloc extHead 2000 20).map fun ext =>
    let s := ((asnNcatBits bp (u32 ((v.qtyPartIIExtensions : Int) - 1)) 3).2, ext)
    let s := if v.hasSafetyExtension then addSafetyExtension v s.1 s.2 else s
    let s := if v.hasSpecialExtension then addSpecialExtension v s.1 s.2 else s
    let s := if v.hasSupplementalExtension then addSupplementalExtension v s.1 s.2 else s
    s.1

/-- `encode_as_bsm`. -/
def encodeAsBsm (extHead : Nat) (bp : Abuf) (v : BsmValue) : Int × Abuf :=
  let bp := encodeCore bp v
  match if v.hasPartII then encodePartII extHead bp v else some bp with
  | none => (-1, bp)
  | some bp =>
    let bp := (asnPushLen bp).2
    (0, (asnPushBits bp 20 16).2)

/-! ## Widths -/

/-- Fields of at least one bit each, and of at most `n` bits together. -/
structure Narrow (n : Nat) (fs : List Field) : Prop where
  pos : ∀ f ∈ fs, 0 < f.width
  le : fieldWidth fs ≤ n

namespace Narrow

theorem mono {n n' : Nat} {fs : List Field} (h : Narrow n fs) (hn : n ≤ n') : Narrow n' fs :=
  ⟨h.pos, h.le.trans hn⟩

theorem nil : Narrow 0 [] := ⟨by simp, le_rfl⟩

theorem cons {n w v : Nat} {fs : List Field} (hw : 0 < w) (h : Narrow n fs) :
    Narrow (w + n) (⟨w, v⟩ :: fs) :=
  ⟨List.forall_mem_cons.mpr ⟨hw, h.pos⟩, Nat.add_le_add_left h.le w⟩

theorem append {n n' : Nat} {fs gs : List Field} (h : Narrow n fs) (h' : Narrow n' gs) :
    Narrow (n + n') (fs ++ gs) :=
  ⟨List.forall_mem_append.mpr ⟨h.pos, h'.pos⟩,
    by rw [fieldWidth_append]; exact Nat.add_le_add h.le h'.le⟩

theorem option {n : Nat} {c : Prop} [Decidable c] {fs : List Field} (h : c → Narrow n fs) :
    Narrow n (if c then fs else []) := by
  split
  · exact h ‹c›
  · exact nil.mono (Nat.zero_le n)

theorem flatMap {n b : Nat} {f : Nat → List Field} (h : ∀ i, Narrow b (f i)) :
    Narrow (n * b) ((List.range n).flatMap f) := by
  induction n with
  | zero => exact nil.mono (Nat.zero_le _)
  | succ n ih =>
    rw [List.range_succ, List.flatMap_append, List.flatMap_singleton, Nat.succ_mul]
    exact ih.append (h n)

end Narrow

theorem narrow_posAccuracy (a : PosAccuracy) : Narrow 32 (posAccuracyFields a) :=
  ⟨by simp [posAccuracyFields], by simp [posAccuracyFields]⟩

theorem narrow_initialPosition (v : FullPositionVector) : Narrow 172 (initialPositionFields v) := by
  unfold initialPositionFields
  apply Narrow.mono
  · repeat' first
      | exact narrow_posAccuracy _ | apply Narrow.append | apply Narrow.option | intro _
      | apply Narrow.cons | exact Narrow.nil | exact Nat.succ_pos _
  · decide

theorem narrow_crumb (v : PhPoint) : Narrow 121 (crumbFields v) := by
  unfold crumbFields
  apply Narrow.mono
  · repeat' first
      | exact narrow_posAccuracy _ | apply Narrow.append | apply Narrow.option | intro _
      | apply Narrow.cons | exact Narrow.nil | exact Nat.succ_pos _
  · decide

theorem narrow_pathHistory (phopts : Nat) (v : PathHistory) (hq : v.qtyCrumbs ≤ 23) :
    Narrow 2971 (pathHistoryFields phopts v) := by
  have hcrumbs : Narrow (23 * 121)
      ((List.range v.qtyCrumbs).flatMap fun i => crumbFields (v.phCrumb i)) :=
    (Narrow.flatMap fun i => narrow_crumb _).mono (Nat.mul_le_mul_right _ hq)
  unfold pathHistoryFields
  apply Narrow.mono
  · repeat' first
      | exact narrow_initialPosition _ | exact hcrumbs | apply Narrow.append | apply Narrow.option
      | intro _ | apply Narrow.cons | exact Narrow.nil | exact Nat.succ_pos _
  · decide

theorem narrow_safety (v : BsmValue) (hq : v.vehsafeopts &&& 0x4 ≠ 0 → v.ph.qtyCrumbs ≤ 23) :
    Narrow 3025 (safetyFields v) := by
  have hph : v.vehsafeopts &&& 0x4 ≠ 0 → Narrow 2971 (pathHistoryFields v.phopts v.ph) := fun hc =>
    narrow_pathHistory _ _ (hq hc)
  unfold safetyFields pathPredictionFields
  apply Narrow.mono
  · repeat' first
      | exact hph | apply Narrow.append | apply Narrow.option | intro _
      | apply Narrow.cons | exact Narrow.nil | exact Nat.succ_pos _
  · decide

theorem narrow_descriptions (v : EventDescription) (hd : v.sizeDesc ≤ 8) :
    Narrow 131 (descriptionsFields v) := by
  have hdesc : Narrow (8 * 16) ((List.range v.sizeDesc).flatMap fun i => [⟨16, v.desc i⟩]) :=
    (Narrow.flatMap fun i => .cons (Nat.succ_pos 15) .nil).mono (Nat.mul_le_mul_right 16 hd)
  exact .cons (Nat.succ_pos 2) hdesc

theorem narrow_eventDescription (eventopts : Nat) (v : EventDescription)
    (hd : eventopts &&& 0x10 ≠ 0 → v.sizeDesc ≤ 8) :
    Narrow 181 (eventDescriptionFields eventopts v) := by
  have hdesc : eventopts &&& 0x10 ≠ 0 → Narrow 131 (descriptionsFields v) := fun hc =>
    narrow_descriptions v (hd hc)
  unfold eventDescriptionFields
  apply Narrow.mono
  · repeat' first
      | exact hdesc | apply Narrow.append | apply Narrow.option | intro _
      | apply Narrow.cons | exact Narrow.nil | exact Nat.succ_pos _
  · decide

theorem narrow_special (v : BsmValue)
    (hd : v.specvehopts &&& 0x2 ≠ 0 → v.eventopts &&& 0x10 ≠ 0 → v.description.sizeDesc ≤ 8) :
    Narrow 226 (specialFields v) := by
  have hdesc : v.specvehopts &&& 0x2 ≠ 0 →
      Narrow 181 (eventDescriptionFields v.eventopts v.description) := fun hc =>
    narrow_eventDescription _ _ (hd hc)
  unfold specialFields emergencyDetailsFields
  apply Narrow.mono
  · repeat' first
      | exact hdesc | apply Narrow.append | apply Narrow.option | intro _
      | apply Narrow.cons | exact Narrow.nil | exact Nat.succ_pos _
  · decide

/-- An option bit of a set of which no bit is there. -/
theorem and_eq_zero_of_subset {n a b : Nat} (h : n &&& a = 0) (hb : a &&& b = b) : n &&& b = 0 := by
  rw [← hb, ← Nat.land_assoc, h, Nat.zero_and]

/-- The fields of a supplemental extension whose options are all supported. -/
theorem supplementalFields_eq {v : BsmValue} (h : v.suppvehopts &&& 0x15f = 0) :
    supplementalFields v = [⟨1, 0⟩, ⟨10, v.suppvehopts⟩] ++
      ((if v.suppvehopts &&& 0x200 ≠ 0 then [⟨8, v.vehicleClass⟩] else []) ++
      ((if v.suppvehopts &&& 0x80 ≠ 0 then vehicleDataFields v.veh else []) ++
      (if v.suppvehopts &&& 0x20 ≠ 0 then weatherProbeFields v.weather else []))) := by
  have h₁ : v.suppvehopts &&& 0x100 = 0 := and_eq_zero_of_subset h rfl
  have h₂ : v.suppvehopts &&& 0x40 = 0 := and_eq_zero_of_subset h rfl
  simp only [supplementalFields, h₁, h₂, ne_eq, not_true_eq_false, if_false]

theorem narrow_supplemental {v : BsmValue} (h : v.suppvehopts &&& 0x15f = 0) :
    Narrow 117 (supplementalFields v) := by
  rw [supplementalFields_eq h]
  unfold vehicleDataFields weatherProbeFields wipersFields
  apply Narrow.mono
  · repeat' first
      | apply Narrow.append | apply Narrow.option | intro _ | apply Narrow.cons | exact Narrow.nil
      | exact Nat.succ_pos _
  · decide

/-! ## The core -/

theorem putOctets_spec {bp : Abuf} (os : List Nat) (h8 : bp.tailBitsLeft = 8)
    (hroom : bp.tail + os.length ≤ bp.end_) :
    Appended bp (putOctets bp os) (octetBits os) ∧ (putOctets bp os).tailBitsLeft = 8 ∧
      (putOctets bp os).tail = bp.tail + os.length ∧
      (putOctets bp os).mem = bp.mem.storeAll bp.tail os := by
  have heq : putOctets bp os =
      memcpy (bp.withTail (bp.tail + os.length) bp.tailBitsLeft) bp.tail os := by
    unfold putOctets abufPut
    rw [if_neg (by omega)]
  have htp : bp.tailPos = 8 * bp.tail := by simp [tailPos, h8]
  rw [heq]
  refine ⟨⟨⟨rfl, rfl, rfl, rfl, rfl⟩, ?_, ?_, ?_⟩, h8, rfl, rfl⟩
  · rw [htp, length_octetBits]
    change 8 * (bp.tail + os.length) + (8 - bp.tailBitsLeft) = _
    omega
  · intro q hq
    exact Mem.bit_storeAll_of_lt os (by omega)
  · rw [htp, length_octetBits]
    exact Mem.bits_storeAll bp.tail os

theorem putWords_spec (ws : List Nat) {bp : Abuf} (h8 : bp.tailBitsLeft = 8)
    (hroom : bp.tail + 4 * ws.length ≤ bp.end_) :
    let bp' := ws.foldl (fun bp w => putOctets bp (wordOctets w)) bp
    Appended bp bp' (octetBits (ws.flatMap wordOctets)) ∧ bp'.tailBitsLeft = 8 ∧
      bp'.tail = bp.tail + 4 * ws.length := by
  induction ws generalizing bp with
  | nil => exact ⟨.refl bp, h8, rfl⟩
  | cons w ws ih =>
    rw [List.length_cons] at hroom
    obtain ⟨happ, h8', htail, -⟩ := putOctets_spec (wordOctets w) h8 (by simp [wordOctets]; omega)
    have hlen : (wordOctets w).length = 4 := rfl
    rw [hlen] at htail
    obtain ⟨happ', h8'', htail'⟩ := ih h8' (by rw [htail, happ.frame.end_]; omega)
    simp only [List.foldl_cons, List.flatMap_cons, octetBits_append, List.length_cons]
    exact ⟨happ.trans happ', h8'', by rw [htail', htail]; omega⟩

/-- The bits of the core. -/
def coreBits (v : BsmValue) : List Bool :=
  octetBits ((coreWords v).flatMap wordOctets) ++ toBits 5 v.core.vehicleLengthCm

theorem length_coreBits (v : BsmValue) : (coreBits v).length = 293 := by
  simp [coreBits, coreWords, wordOctets]

/-- The last byte of the core: five bits, and three clear ones for what follows. -/
theorem putLast_spec {bp : Abuf} (x : Nat) (h8 : bp.tailBitsLeft = 8)
    (hroom : bp.tail + 1 ≤ bp.end_) :
    let bp' := putOctets bp [x <<< 3 % 256]
    Appended bp (bp'.withTail (bp'.tail - 1) 3) (toBits 5 x) ∧
      Ready (bp'.withTail (bp'.tail - 1) 3) := by
  intro bp'
  obtain ⟨happ, -, htail, hmem⟩ := putOctets_spec [x <<< 3 % 256] h8 hroom
  have htail' : bp'.tail - 1 = bp.tail := by
    rw [htail, List.length_singleton, Nat.add_sub_cancel]
  have htp : bp.tailPos = 8 * bp.tail := by simp [tailPos, h8]
  have hhigh : toBits 5 ((x <<< 3 % 256) >>> 3) = toBits 5 x := by
    apply toBits_eq_of_testBit
    intro i hi
    have h256 : (256 : Nat) = 2 ^ 8 := rfl
    rw [Nat.testBit_shiftRight, h256, Nat.testBit_mod_two_pow, Nat.testBit_shiftLeft]
    have hlt : 3 + i < 8 := by omega
    simp [hlt]
  have hbyte : bp'.mem.byte bp.tail = x <<< 3 % 256 := by
    rw [hmem]
    change (bp.mem.store bp.tail (x <<< 3 % 256)).byte bp.tail = _
    rw [Mem.byte_store_self, Nat.mod_mod]
  rw [htail']
  refine ⟨⟨happ.frame.trans (sameFrame_withTail bp' _ _), ?_, happ.kept, ?_⟩, ⟨?_, ?_⟩, ?_⟩
  · rw [htp, length_toBits]
    rfl
  · have hnew := happ.new
    rw [octetBits_cons, octetBits_nil, List.append_nil, length_toBits,
      show (8 : Nat) = 5 + 3 from rfl, Mem.bits_add, toBits_add 5 3] at hnew
    have hfst := (List.append_inj hnew (by simp)).1
    rw [length_toBits, ← hhigh]
    exact hfst
  · simp
  · intro _
    simp only [withTail_mem, withTail_tail, withTail_tailBitsLeft, hbyte, Nat.shiftLeft_eq]
    omega
  · simp

theorem encodeCore_spec {bp : Abuf} (v : BsmValue) (h8 : bp.tailBitsLeft = 8)
    (hroom : bp.tail + 37 ≤ bp.end_) :
    Appended bp (encodeCore bp v) (coreBits v) ∧ Ready (encodeCore bp v) := by
  have hlen : (coreWords v).length = 9 := by simp [coreWords]
  obtain ⟨happ, h8', htail⟩ := putWords_spec (coreWords v) h8 (by rw [hlen]; omega)
  obtain ⟨happ', hrdy⟩ := putLast_spec v.core.vehicleLengthCm h8'
    (by rw [htail, happ.frame.end_, hlen]; omega)
  exact ⟨happ.trans happ', hrdy⟩

/-! ## Part II -/

/-- An extension: its id and the open type. -/
def extensionFields (id : Nat) (fields : List Field) : List Field := ⟨6, id⟩ :: openType fields

/-- Part II: the number of extensions, then those that are there. -/
def partIIFields (v : BsmValue) : List Field :=
  ⟨3, u32 ((v.qtyPartIIExtensions : Int) - 1)⟩ ::
    ((if v.hasSafetyExtension then extensionFields 0 (safetyFields v) else []) ++
    ((if v.hasSpecialExtension then extensionFields 1 (specialFields v) else []) ++
    (if v.hasSupplementalExtension then extensionFields 2 (supplementalFields v) else [])))

/-- What the next extension finds: a message that can be written to, and a block for itself. -/
structure Extendable (bp ext : Abuf) : Prop where
  ready : Ready bp
  headspace : bp.headHeadspaceBits = 0
  block : Block ext 2000

theorem tailBitsLeft_lt {bp : Abuf} (hr : Ready bp) (h : bp.tailPos % 8 ≠ 0) :
    bp.tailBitsLeft < 8 := by
  have hle := hr.le
  simp only [tailPos] at h
  omega

/-- The id and the open type. -/
theorem mergeExtension_spec {bp ext : Abuf} (h : Extendable bp ext) (hb : Blank ext 2000 20)
    (hmod : (bp.tailPos + 6) % 8 ≠ 0) (id : Nat) {fields : List Field} (hn : Narrow 3025 fields)
    (hne : 0 < fieldWidth fields)
    (hroom : bp.tailPos + fieldWidth (extensionFields id fields) ≤ 8 * bp.end_) :
    Appended bp (mergeType (asnNcatBits bp id 6).2 ext fields).2.1
        (fieldBits (extensionFields id fields)) ∧
      Extendable (mergeType (asnNcatBits bp id 6).2 ext fields).2.1
        (mergeType (asnNcatBits bp id 6).2 ext fields).2.2 ∧
      (asnNcatBits bp id 6).2.headHeadspaceBits = 0 ∧
      (asnNcatBits bp id 6).2.tailBitsLeft < 8 := by
  have hwidth : fieldWidth (extensionFields id fields) = 6 + fieldWidth (openType fields) := rfl
  obtain ⟨-, happ, hrdy, -⟩ :=
    asnNcatBits_spec h.ready.toFillable id (w := 6) (by decide) (by omega)
  have htp := happ.tailPos
  rw [length_toBits] at htp
  have hlt := tailBitsLeft_lt hrdy (by rw [htp]; exact hmod)
  have hle := hn.le
  obtain ⟨happ', hrdy', -, hblock⟩ := mergeType_spec hrdy hlt hb (by decide) fields hn.pos hne
    (by omega) (by omega) (by rw [htp, happ.frame.end_]; omega)
  have hhs : (asnNcatBits bp id 6).2.headHeadspaceBits = 0 :=
    happ.frame.headHeadspaceBits.trans h.headspace
  exact ⟨happ.trans happ', ⟨hrdy', happ'.frame.headHeadspaceBits.trans hhs, hblock⟩, hhs, hlt⟩

theorem addSafetyExtension_spec {v : BsmValue} {bp ext : Abuf} (h : Extendable bp ext)
    (hb : Blank ext 2000 20) (hmod : (bp.tailPos + 6) % 8 ≠ 0)
    (hq : v.vehsafeopts &&& 0x4 ≠ 0 → v.ph.qtyCrumbs ≤ 23)
    (hroom : bp.tailPos + fieldWidth (extensionFields 0 (safetyFields v)) ≤ 8 * bp.end_) :
    Appended bp (addSafetyExtension v bp ext).1 (fieldBits (extensionFields 0 (safetyFields v))) ∧
      Extendable (addSafetyExtension v bp ext).1 (addSafetyExtension v bp ext).2 := by
  obtain ⟨happ, hext, hhs, hlt⟩ := mergeExtension_spec h hb hmod 0 (narrow_safety v hq)
    (by simp [safetyFields]) hroom
  have htrim : abufTrim (asnNcatBits bp 0 6).2 = (asnNcatBits bp 0 6).2 := by
    simp only [abufTrim, hhs, if_neg hlt.ne, OfNat.zero_ne_ofNat, if_false]
  have heq : addSafetyExtension v bp ext =
      ((mergeType (asnNcatBits bp 0 6).2 ext (safetyFields v)).2.1,
        abufPurge (mergeType (asnNcatBits bp 0 6).2 ext (safetyFields v)).2.2 20) := by
    unfold addSafetyExtension mergeType buildVehicleSafetyExt
    simp only [htrim]
  have hblock := (blank_abufPurge hext.block (show 20 < 2000 by decide)).toBlock
  rw [heq]
  dsimp only
  exact ⟨happ, hext.ready, hext.headspace, hblock⟩

/-- An extension that starts with a purge of its abuf. -/
theorem addExtension_spec {bp ext : Abuf} (h : Extendable bp ext)
    (hmod : (bp.tailPos + 6) % 8 ≠ 0) (id : Nat) {build : Abuf → Abuf} {fields : List Field}
    (hbuild : ∀ e, build e = (asnPushLen (abufPadToEvenOctet (ncatAll e fields))).2)
    (hn : Narrow 3025 fields) (hne : 0 < fieldWidth fields)
    (hroom : bp.tailPos + fieldWidth (extensionFields id fields) ≤ 8 * bp.end_) :
    Appended bp (addExtension build id bp (abufPurge ext 20)).1
        (fieldBits (extensionFields id fields)) ∧
      Extendable (addExtension build id bp (abufPurge ext 20)).1
        (addExtension build id bp (abufPurge ext 20)).2 := by
  have hb := blank_abufPurge h.block (show 20 < 2000 by decide)
  obtain ⟨happ, hext, -, -⟩ :=
    mergeExtension_spec ⟨h.ready, h.headspace, hb.toBlock⟩ hb hmod id hn hne hroom
  have heq : addExtension build id bp (abufPurge ext 20) =
      (mergeType (asnNcatBits bp id 6).2 (abufPurge ext 20) fields).2 := by
    unfold addExtension mergeType
    simp only [hbuild]
  rw [heq]
  exact ⟨happ, hext⟩

/-- An extension that is there or not. -/
theorem extend_option {c : Bool} {s t : Abuf × Abuf} {fs : List Field} (hs : Extendable s.1 s.2)
    (ht : c = true → Appended s.1 t.1 (fieldBits fs) ∧ Extendable t.1 t.2) :
    Appended s.1 (if c then t else s).1 (fieldBits (if c then fs else [])) ∧
      Extendable (if c then t else s).1 (if c then t else s).2 := by
  cases c with
  | true => exact ht rfl
  | false => exact ⟨.refl s.1, hs⟩

theorem width_extension_mod (c : Bool) (id : Nat) (fields : List Field) :
    fieldWidth (if c then extensionFields id fields else []) % 8 = if c then 6 else 0 := by
  cases c with
  | true =>
    have hwidth : fieldWidth (extensionFields id fields) = 6 + fieldWidth (openType fields) := rfl
    have hopen := fieldWidth_openType fields
    simp only [if_true]
    omega
  | false => rfl

/-- What the encoder of Part II needs of the value: counts that fit the arrays, and no option on
which `build_SupplementalExt` takes its error exit. -/
structure Encodable (v : BsmValue) : Prop where
  crumbs : v.hasSafetyExtension = true → v.vehsafeopts &&& 0x4 ≠ 0 → v.ph.qtyCrumbs ≤ 23
  desc : v.hasSpecialExtension = true → v.specvehopts &&& 0x2 ≠ 0 → v.eventopts &&& 0x10 ≠ 0 →
    v.description.sizeDesc ≤ 8
  supported : v.hasSupplementalExtension = true → v.suppvehopts &&& 0x15f = 0

theorem encodePartII_spec {extHead : Nat} {bp : Abuf} {v : BsmValue} (hhead : 0 < extHead)
    (hr : Ready bp) (hhs : bp.headHeadspaceBits = 0) (hmod : bp.tailPos % 8 = 5)
    (hv : Encodable v) (hroom : bp.tailPos + fieldWidth (partIIFields v) ≤ 8 * bp.end_) :
    ∃ bp', encodePartII extHead bp v = some bp' ∧
      Appended bp bp' (fieldBits (partIIFields v)) ∧ Ready bp' := by
  set q := u32 ((v.qtyPartIIExtensions : Int) - 1) with hq
  set fs₁ := if v.hasSafetyExtension then extensionFields 0 (safetyFields v) else [] with hfs₁
  set fs₂ := if v.hasSpecialExtension then extensionFields 1 (specialFields v) else [] with hfs₂
  set fs₃ := if v.hasSupplementalExtension then extensionFields 2 (supplementalFields v) else []
    with hfs₃
  have hfields : partIIFields v = ⟨3, q⟩ :: (fs₁ ++ (fs₂ ++ fs₃)) := rfl
  have hwidth : fieldWidth (partIIFields v) =
      3 + (fieldWidth fs₁ + (fieldWidth fs₂ + fieldWidth fs₃)) := by
    rw [hfields, fieldWidth_cons, fieldWidth_append, fieldWidth_append]
  have hmod₁ := width_extension_mod v.hasSafetyExtension 0 (safetyFields v)
  have hmod₂ := width_extension_mod v.hasSpecialExtension 1 (specialFields v)
  rw [← hfs₁] at hmod₁
  rw [← hfs₂] at hmod₂
  -- the abuf for the extensions and the number of them
  obtain ⟨ext, halloc, hblank⟩ : ∃ ext, abufAlloc extHead 2000 20 = some ext ∧
      Blank ext 2000 20 := ⟨_, rfl, ⟨⟨hhead, rfl, rfl⟩, rfl, rfl, rfl, rfl⟩⟩
  obtain ⟨-, happ, hrdy, -⟩ := asnNcatBits_spec hr.toFillable q (w := 3) (by decide) (by omega)
  have htp := happ.tailPos
  rw [length_toBits] at htp
  have hend := happ.frame.end_
  have hext₀ : Extendable (asnNcatBits bp q 3).2 ext :=
    ⟨hrdy, happ.frame.headHeadspaceBits.trans hhs, hblank.toBlock⟩
  -- the safety extension
  have hsafety := fun hc => addSafetyExtension_spec hext₀ hblank (by rw [htp]; omega)
    (hv.crumbs hc) (by
      rw [htp, hend]
      rw [hfs₁, if_pos hc] at hwidth
      omega)
  obtain ⟨happ₁, hext₁⟩ := extend_option (s := ((asnNcatBits bp q 3).2, ext))
    (t := addSafetyExtension v (asnNcatBits bp q 3).2 ext) hext₀ hsafety
  rw [← hfs₁] at happ₁
  set s₁ := if v.hasSafetyExtension then addSafetyExtension v (asnNcatBits bp q 3).2 ext
    else ((asnNcatBits bp q 3).2, ext) with hs₁
  have htp₁ := happ₁.tailPos
  rw [length_fieldBits] at htp₁
  have hend₁ := happ₁.frame.end_
  simp only at htp₁ hend₁
  -- the special extension
  obtain ⟨happ₂, hext₂⟩ := extend_option (s := s₁) (t := addSpecialExtension v s₁.1 s₁.2) hext₁
    fun hc => addExtension_spec hext₁ (by split at hmod₁ <;> omega) 1 (fun e => rfl)
      ((narrow_special v (hv.desc hc)).mono (by decide)) (by simp [specialFields]) (by
        rw [htp₁, htp, hend₁, hend]
        rw [hfs₂, if_pos hc] at hwidth
        omega)
  rw [← hfs₂] at happ₂
  set s₂ := if v.hasSpecialExtension then addSpecialExtension v s₁.1 s₁.2 else s₁ with hs₂
  have htp₂ := happ₂.tailPos
  rw [length_fieldBits] at htp₂
  have hend₂ := happ₂.frame.end_
  -- the supplemental extension
  obtain ⟨happ₃, hext₃⟩ := extend_option (s := s₂) (t := addSupplementalExtension v s₂.1 s₂.2)
    hext₂ fun hc => addExtension_spec hext₂
      (by split at hmod₁ <;> split at hmod₂ <;> omega) 2
      (fun e => by rw [buildSupplementalExt, if_neg (by simp [hv.supported hc])])
      ((narrow_supplemental (hv.supported hc)).mono (by decide))
      (by simp [supplementalFields]) (by
        rw [htp₂, htp₁, htp, hend₂, hend₁, hend]
        rw [hfs₃, if_pos hc] at hwidth
        omega)
  rw [← hfs₃] at happ₃
  refine ⟨_, by rw [encodePartII, halloc]; rfl, ?_, hext₃.ready⟩
  rw [hfields, fieldBits_cons, fieldBits_append, fieldBits_append]
  exact happ.trans (happ₁.trans (happ₂.trans happ₃))

theorem fieldWidth_extension_le {c : Bool} {n : Nat} (id : Nat) {fields : List Field}
    (h : c = true → Narrow n fields) :
    fieldWidth (if c then extensionFields id fields else []) ≤ n + 29 := by
  cases c with
  | true =>
    have hle := (h rfl).le
    have hwidth : fieldWidth (extensionFields id fields) = 6 + fieldWidth (openType fields) := rfl
    have hopen := fieldWidth_openType fields
    rw [length_lengthOctets] at hopen
    simp only [if_true]
    split at hopen <;> omega
  | false => exact Nat.zero_le _

theorem fieldWidth_partII_le {v : BsmValue} (hv : Encodable v) :
    fieldWidth (partIIFields v) ≤ 3458 := by
  have h₁ := fieldWidth_extension_le 0 fun hc => narrow_safety v (hv.crumbs hc)
  have h₂ := fieldWidth_extension_le 1 fun hc => narrow_special v (hv.desc hc)
  have h₃ := fieldWidth_extension_le 2 fun hc => narrow_supplemental (hv.supported hc)
  rw [partIIFields, fieldWidth_cons, fieldWidth_append, fieldWidth_append]
  simp only
  omega

/-! ## The message -/

/-- An abuf for a message: nothing in it, four octets of headroom for the id and the length, and
room for what is behind them. -/
structure Fresh (bp : Abuf) (bits : Nat) : Prop where
  head : 0 < bp.head
  headroom : bp.head + 4 ≤ bp.data
  tail : bp.tail = bp.data
  tailBitsLeft : bp.tailBitsLeft = 8
  headspace : bp.headHeadspaceBits = 0
  room : 8 * bp.data + bits ≤ 8 * bp.end_

/-- The content of an encoded message: `abuf_pull` takes the id, then the length is parsed. -/
def messageContent (bp : Abuf) : Int × Cursor :=
  parseAsnVariableLengthEnc bp.mem ⟨bp.data + 2, 8⟩

/-- Length and id in front of a message that starts with a byte. -/
theorem pushHeader_spec {bp : Abuf} {n : Nat} (hr : Ready bp) (hhs : bp.headHeadspaceBits = 0)
    (hhead : 0 < bp.head) (hroom : bp.head + 4 ≤ bp.data) (hlen : bp.tailPos = 8 * bp.data + n)
    (hpos : 0 < n) (hlt : n < 0x8000) :
    Pushed bp (asnPushBits (asnPushLen bp).2 20 16).2
        (toBits 16 20 ++ octetBits (lengthOctets ((n + 7) / 8))) ∧
      messageContent (asnPushBits (asnPushLen bp).2 20 16).2 =
        ((((n + 7) / 8 : Nat) : Int), ⟨bp.data, 8⟩) := by
  set k := (n + 7) / 8 with hk
  have hst : bp.startPos = 8 * bp.data := by rw [startPos, hhs, Nat.add_zero]
  have hbits : abufBitsLen bp = n := by
    rw [abufBitsLen_eq hr (by omega)]
    omega
  have hoct : (lengthOctets k).length ≤ 2 := by
    rw [length_lengthOctets]
    split <;> decide
  obtain ⟨hpush, hhs₁⟩ :=
    asnPushEncodedLen_spec bp (show 0 < k by omega) (by omega) (by omega) hhead
    (by omega)
  rw [asnPushLen_eq hbits, ← hk]
  have hst₁ := hpush.startPos
  rw [length_octetBits] at hst₁
  obtain ⟨hpush', hhs₂⟩ := asnPushBits_spec 20 (n := 16) (by decide)
    (show (asnPushEncodedLen bp k).2.headHeadspaceBits ≤ 8 by omega) (hpush.head ▸ hhead)
    (by rw [hpush.head]; omega)
  set bp' := (asnPushBits (asnPushEncodedLen bp k).2 20 16).2 with hbp'
  have hst₂ := hpush'.startPos
  rw [length_toBits] at hst₂
  have hall := hpush.trans hpush'
  refine ⟨hall, ?_⟩
  have hstd : bp'.startPos = 8 * bp'.data + bp'.headHeadspaceBits := rfl
  have hdata : bp'.data + 2 + (lengthOctets k).length = bp.data := by omega
  -- the octets of the length stand behind the id
  have hnew := hall.new
  rw [List.length_append, Mem.bits_add, length_toBits, length_octetBits] at hnew
  have hlenBits := (List.append_inj hnew (by simp)).2
  rw [show bp'.startPos + 16 = 8 * (bp'.data + 2) by omega] at hlenBits
  have hholds := Mem.holds_of_bits (fun o ho => lengthOctets_lt (by omega) ho) hlenBits
  rw [messageContent, parse_lengthOctets (by omega) hholds, hdata, Nat.mod_eq_of_lt (by omega)]

/-- The encoder without its error exits: the bits of core and Part II behind id and length. -/
theorem encodeAsBsm_spec {extHead : Nat} {bp : Abuf} {v : BsmValue} (hext : 0 < extHead)
    (hII : v.hasPartII = true) (hv : Encodable v)
    (hfresh : Fresh bp (293 + fieldWidth (partIIFields v))) :
    (encodeAsBsm extHead bp v).1 = 0 ∧
      (encodeAsBsm extHead bp v).2.mem.bits (8 * bp.data) (293 + fieldWidth (partIIFields v)) =
        coreBits v ++ fieldBits (partIIFields v) ∧
      messageContent (encodeAsBsm extHead bp v).2 =
        ((((293 + fieldWidth (partIIFields v) + 7) / 8 : Nat) : Int), ⟨bp.data, 8⟩) := by
  have hwidth := fieldWidth_partII_le hv
  have hcount : 3 ≤ fieldWidth (partIIFields v) := by
    rw [partIIFields, fieldWidth_cons]
    exact Nat.le_add_right 3 _
  have hroom := hfresh.room
  have htail := hfresh.tail
  have htp : bp.tailPos = 8 * bp.data := by
    rw [tailPos, hfresh.tailBitsLeft, htail, Nat.sub_self, Nat.add_zero]
  obtain ⟨happ, hrdy⟩ := encodeCore_spec v hfresh.tailBitsLeft (by omega)
  have htp₁ := happ.tailPos
  rw [length_coreBits, htp] at htp₁
  obtain ⟨bp₂, henc, happ₂, hrdy₂⟩ := encodePartII_spec hext hrdy
    (happ.frame.headHeadspaceBits.trans hfresh.headspace) (by omega) hv
    (by rw [htp₁, happ.frame.end_]; omega)
  have hall := happ.trans happ₂
  have htp₂ := hall.tailPos
  rw [List.length_append, length_coreBits, length_fieldBits, htp] at htp₂
  have hdata := hall.frame.data
  obtain ⟨hpush, hcontent⟩ := pushHeader_spec (n := 293 + fieldWidth (partIIFields v)) hrdy₂
    (hall.frame.headHeadspaceBits.trans hfresh.headspace) (hall.frame.head ▸ hfresh.head)
    (by rw [hall.frame.head, hdata]; exact hfresh.headroom) (by rw [hdata]; exact htp₂)
    (by omega) (by omega)
  have heq : encodeAsBsm extHead bp v = (0, (asnPushBits (asnPushLen bp₂).2 20 16).2) := by
    unfold encodeAsBsm
    simp only [hII, if_true, henc]
  rw [heq]
  refine ⟨rfl, ?_, by rw [hcontent, hdata]⟩
  have hst₂ : bp₂.startPos = 8 * bp.data := by
    rw [startPos, hall.frame.headHeadspaceBits, hfresh.headspace, hdata, Nat.add_zero]
  have hnew := hall.new
  rw [List.length_append, length_coreBits, length_fieldBits, htp] at hnew
  rw [← hnew]
  exact Mem.bits_congr fun q hq _ => hpush.kept q (by rw [hst₂]; exact hq)

end SatComm.J2735
