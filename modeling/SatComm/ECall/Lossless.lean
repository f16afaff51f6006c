import SatComm.ECall.Frame

/-!
# Nothing is lost

Two messages that are equal were made from data that agree in everything the message is meant to
carry. The bits are taken apart from the front: the version fixes the layout, the presence flags
fix which of the later fields there are, and two fields say how long the additional data is.
-/

namespace SatComm.ECall

open Bits

/-! ## Fields in front of a string -/

theorem append_inj_of_length {a a' s s' : List Bool} (hlen : a.length = a'.length) :
    a ++ s = a' ++ s' ↔ a = a' ∧ s = s' :=
  ⟨fun h => List.append_inj h hlen, fun ⟨ha, hs⟩ => by rw [ha, hs]⟩

theorem toBits_inj {w u v : Nat} (hu : u < 2 ^ w) (hv : v < 2 ^ w) :
    toBits w u = toBits w v ↔ u = v := by
  constructor
  · intro h
    have hmod := toBits_injective h
    rwa [Nat.mod_eq_of_lt hu, Nat.mod_eq_of_lt hv] at hmod
  · rintro rfl
    rfl

theorem toBits_append_inj {w u v : Nat} {s s' : List Bool} (hu : u < 2 ^ w) (hv : v < 2 ^ w) :
    toBits w u ++ s = toBits w v ++ s' ↔ u = v ∧ s = s' := by
  rw [append_inj_of_length (by simp), toBits_inj hu hv]

theorem bitVec_append_inj {w : Nat} {x y : BitVec w} {s s' : List Bool} :
    toBits w x.toNat ++ s = toBits w y.toNat ++ s' ↔ x = y ∧ s = s' := by
  rw [toBits_append_inj x.isLt y.isLt, BitVec.toNat_inj]

theorem flag_append_inj {a b : Bool} {s s' : List Bool} :
    flag a ++ s = flag b ++ s' ↔ a = b ∧ s = s' := by
  unfold flag
  rw [toBits_append_inj (by cases a <;> decide) (by cases b <;> decide)]
  cases a <;> cases b <;> simp

theorem signed_append_inj {w : Nat} {x y : Int} {s s' : List Bool} :
    signed w x ++ s = signed w y ++ s' ↔ x % 2 ^ w = y % 2 ^ w ∧ s = s' := by
  have hpos : (0 : Int) < 2 ^ w := by positivity
  have hx := Int.emod_nonneg x hpos.ne'
  have hy := Int.emod_nonneg y hpos.ne'
  have hxlt := Int.emod_lt_of_pos x hpos
  have hylt := Int.emod_lt_of_pos y hpos
  unfold signed
  rw [toBits_append_inj]
  · constructor
    · rintro ⟨h, hs⟩
      exact ⟨by omega, hs⟩
    · rintro ⟨h, hs⟩
      exact ⟨by rw [h], hs⟩
  · zify
    omega
  · zify
    omega

/-! ## Characters -/

/-- The letters and digits of a vehicle identification number: all but `I`, `O` and `Q`. -/
def isVinChar (c : UInt8) : Prop :=
  (48 ≤ c ∧ c ≤ 57) ∨ (65 ≤ c ∧ c ≤ 72) ∨ (74 ≤ c ∧ c ≤ 78) ∨ c = 80 ∨ (82 ≤ c ∧ c ≤ 90)

/-- Upper-case hexadecimal digits. -/
def isHexChar (c : UInt8) : Prop := (48 ≤ c ∧ c ≤ 57) ∨ (65 ≤ c ∧ c ≤ 70)

theorem isVinChar_of_isHexChar {c : UInt8} (h : isHexChar c) : isVinChar c := by
  rcases h with h | h
  · exact .inl h
  · refine .inr (.inl ⟨h.1, ?_⟩)
    have := h.2
    rw [UInt8.le_iff_toNat_le] at this ⊢
    simp only [UInt8.reduceToNat] at this ⊢
    omega

theorem convertChar_lt (c : UInt8) : convertChar c < 2 ^ 6 := by
  unfold convertChar
  simp only [UInt8.le_iff_toNat_le, ← UInt8.toNat_inj, UInt8.reduceToNat]
  split_ifs <;> omega

theorem convertChar_lt_of_isHexChar {c : UInt8} (h : isHexChar c) : convertChar c < 2 ^ 4 := by
  unfold isHexChar at h
  unfold convertChar
  simp only [UInt8.le_iff_toNat_le, ← UInt8.toNat_inj, UInt8.reduceToNat] at h ⊢
  split_ifs <;> omega

/-- The character with a code. -/
def charOfCode (code : Nat) : Nat :=
  if code < 10 then code + 48
  else if code < 18 then code + 55
  else if code < 23 then code + 56
  else if code < 24 then code + 57
  else code + 58

theorem charOfCode_convertChar {c : UInt8} (h : isVinChar c) :
    charOfCode (convertChar c) = c.toNat := by
  unfold isVinChar at h
  unfold convertChar
  simp only [UInt8.le_iff_toNat_le, ← UInt8.toNat_inj, UInt8.reduceToNat] at h ⊢
  -- the ranges of the characters, in order
  rcases h with h | h | h | h | h
  · rw [if_pos h, charOfCode, if_pos (by omega)]
    omega
  · rw [if_neg (by omega), if_pos h, charOfCode, if_neg (by omega), if_pos (by omega)]
    omega
  · rw [if_neg (by omega), if_neg (by omega), if_pos h, charOfCode, if_neg (by omega),
      if_neg (by omega), if_pos (by omega)]
    omega
  · rw [if_neg (by omega), if_neg (by omega), if_neg (by omega), if_pos h, charOfCode,
      if_neg (by omega), if_neg (by omega), if_neg (by omega), if_pos (by omega)]
    omega
  · rw [if_neg (by omega), if_neg (by omega), if_neg (by omega), if_neg (by omega), if_pos h,
      charOfCode, if_neg (by omega), if_neg (by omega), if_neg (by omega), if_neg (by omega)]
    omega

/-- The codes close the gaps at `I`, `O` and `Q`, and stay apart. -/
theorem convertChar_inj {c c' : UInt8} (h : isVinChar c) (h' : isVinChar c')
    (heq : convertChar c = convertChar c') : c = c' := by
  apply UInt8.toNat_inj.mp
  rw [← charOfCode_convertChar h, heq, charOfCode_convertChar h']

theorem writePrintableString_append_inj (optionalData : Bool) {P : UInt8 → Prop}
    (hlt : ∀ c, P c → convertChar c < 2 ^ (if optionalData then 4 else 6))
    (hinj : ∀ c c', P c → P c' → convertChar c = convertChar c' → c = c')
    {a b : Text} (ha : ∀ c ∈ a, P c) (hb : ∀ c ∈ b, P c) (hlen : a.length = b.length)
    {s s' : List Bool}
    (h : writePrintableString a optionalData ++ s = writePrintableString b optionalData ++ s') :
    a = b ∧ s = s' := by
  induction a generalizing b with
  | nil =>
    obtain rfl : b = [] := List.length_eq_zero_iff.mp hlen.symm
    exact ⟨rfl, h⟩
  | cons c a ih =>
    cases b with
    | nil => cases hlen
    | cons c' b =>
      have hc := ha c List.mem_cons_self
      have hc' := hb c' List.mem_cons_self
      unfold writePrintableString at h ih
      rw [List.flatMap_cons, List.flatMap_cons, List.append_assoc, List.append_assoc,
        toBits_append_inj (hlt c hc) (hlt c' hc')] at h
      obtain ⟨heq, hrest⟩ := h
      obtain ⟨rfl, hs⟩ := ih (fun x hx => ha x (List.mem_cons_of_mem _ hx))
        (fun x hx => hb x (List.mem_cons_of_mem _ hx)) (Nat.succ.inj hlen) hrest
      exact ⟨by rw [hinj c c' hc hc' heq], hs⟩

/-! ## The data -/

/-- A vehicle identification number as ISO 3779 has it. -/
structure VinOk (vin : ECallVehicleIdentificationNumber) : Prop where
  isowmi : vin.isowmi.length = 3 ∧ ∀ c ∈ vin.isowmi, isVinChar c
  isovds : vin.isovds.length = 6 ∧ ∀ c ∈ vin.isovds, isVinChar c
  isovisModelyear : vin.isovisModelyear.length = 1 ∧ ∀ c ∈ vin.isovisModelyear, isVinChar c
  isovisSeqPlant : vin.isovisSeqPlant.length = 7 ∧ ∀ c ∈ vin.isovisSeqPlant, isVinChar c

/-- Both differences are in -512..511. -/
structure DeltaOk (delta : ECallVehicleLocationDelta) : Prop where
  latitude : -512 ≤ delta.latitudeDelta.toInt ∧ delta.latitudeDelta.toInt ≤ 511
  longitude : -512 ≤ delta.longitudeDelta.toInt ∧ delta.longitudeDelta.toInt ≤ 511

structure WellFormed (d : ECallMsdData) : Prop where
  vin : VinOk d.vehicleIdentificationNumber
  n1 : DeltaOk d.recentVehicleLocationN1
  n2 : DeltaOk d.recentVehicleLocationN2
  data : ∀ c ∈ d.optionalPdu.data, isHexChar c

/-- The octets of an object identifier as they are written. -/
def oidOctets (oid : Text) : List Int := (encodedOid oid).map (· % 2 ^ 8)

/-- Agreement in everything a message carries. -/
structure Agree (d d' : ECallMsdData) : Prop where
  msdVersion : d.msdVersion = d'.msdVersion
  optionals : d.optionals = d'.optionals
  messageIdentifier : d.messageIdentifier = d'.messageIdentifier
  control : d.control = d'.control
  vehicleIdentificationNumber : d.vehicleIdentificationNumber = d'.vehicleIdentificationNumber
  vehiclePropulsionStorage : d.vehiclePropulsionStorage = d'.vehiclePropulsionStorage
  timestamp : d.timestamp = d'.timestamp
  vehicleLocation : d.vehicleLocation = d'.vehicleLocation
  vehicleDirection : d.vehicleDirection = d'.vehicleDirection
  recentVehicleLocationN1 : d.optionals.recentVehicleLocationN1Present = true →
    d.recentVehicleLocationN1 = d'.recentVehicleLocationN1
  recentVehicleLocationN2 : d.optionals.recentVehicleLocationN2Present = true →
    d.recentVehicleLocationN2 = d'.recentVehicleLocationN2
  numberOfPassengers : d.optionals.numberOfPassengersPresent = true →
    d.numberOfPassengers = d'.numberOfPassengers
  oid : d.optionals.optionalDataPresent = true →
    oidOctets d.optionalPdu.oid = oidOctets d'.optionalPdu.oid
  data : d.optionals.optionalDataPresent = true → d.optionalPdu.data = d'.optionalPdu.data

/-! ## Section by section -/

theorem vin_append_inj {vin vin' : ECallVehicleIdentificationNumber} (h : VinOk vin)
    (h' : VinOk vin') {s s' : List Bool}
    (heq : writeVehicleIdentification vin ++ s = writeVehicleIdentification vin' ++ s') :
    vin = vin' ∧ s = s' := by
  have hpart := fun {a b : Text} => writePrintableString_append_inj false
    (P := isVinChar) (fun c _ => convertChar_lt c) (fun c c' => convertChar_inj) (a := a) (b := b)
  unfold writeVehicleIdentification at heq
  simp only [h.isovds.1, h.isovisModelyear.1, h.isovisSeqPlant.1, h'.isovds.1,
    h'.isovisModelyear.1, h'.isovisSeqPlant.1, ne_eq, not_true_eq_false, ↓reduceIte,
    List.append_assoc] at heq
  obtain ⟨hwmi, heq⟩ := hpart h.isowmi.2 h'.isowmi.2 (h.isowmi.1.trans h'.isowmi.1.symm) heq
  obtain ⟨hvds, heq⟩ := hpart h.isovds.2 h'.isovds.2 (h.isovds.1.trans h'.isovds.1.symm) heq
  obtain ⟨hyear, heq⟩ := hpart h.isovisModelyear.2 h'.isovisModelyear.2
    (h.isovisModelyear.1.trans h'.isovisModelyear.1.symm) heq
  obtain ⟨hplant, hs⟩ := hpart h.isovisSeqPlant.2 h'.isovisSeqPlant.2
    (h.isovisSeqPlant.1.trans h'.isovisSeqPlant.1.symm) heq
  refine ⟨?_, hs⟩
  clear h h' hpart
  cases vin
  cases vin'
  rw [ECallVehicleIdentificationNumber.mk.injEq]
  exact ⟨hwmi, hvds, hyear, hplant⟩

theorem storage_append_inj {storage storage' : ECallVehiclePropulsionStorageType}
    {s s' : List Bool}
    (h : writeVehiclePropulsionStorage storage ++ s =
      writeVehiclePropulsionStorage storage' ++ s') :
    storage = storage' ∧ s = s' := by
  unfold writeVehiclePropulsionStorage at h
  simp only [List.append_assoc, List.append_cancel_left_eq, flag_append_inj] at h
  obtain ⟨h1, h2, h3, h4, h5, h6, h7, hs⟩ := h
  cases storage
  cases storage'
  simp_all

theorem location_append_inj {location location' : ECallVehicleLocation} {s s' : List Bool}
    (h : writeVehicleLocation location ++ s = writeVehicleLocation location' ++ s') :
    location = location' ∧ s = s' := by
  unfold writeVehicleLocation at h
  simp only [List.append_assoc, signed_append_inj] at h
  obtain ⟨hlat, hlong, hs⟩ := h
  have hinj : ∀ x y : BitVec 32, (x.toInt + 2147483648) % 2 ^ 32 = (y.toInt + 2147483648) % 2 ^ 32 →
      x = y := by
    intro x y hxy
    have hx := BitVec.le_toInt x
    have hx' := BitVec.toInt_lt (x := x)
    have hy := BitVec.le_toInt y
    have hy' := BitVec.toInt_lt (x := y)
    norm_num at hx hx' hy hy'
    rw [Int.emod_eq_of_lt (by omega) (by omega), Int.emod_eq_of_lt (by omega) (by omega)] at hxy
    exact BitVec.eq_of_toInt_eq (by omega)
  have h1 := hinj _ _ hlat
  have h2 := hinj _ _ hlong
  cases location
  cases location'
  simp_all

theorem delta_append_inj {delta delta' : ECallVehicleLocationDelta} (hd : DeltaOk delta)
    (hd' : DeltaOk delta') {s s' : List Bool}
    (h : writeVehicleLocationDelta delta ++ s = writeVehicleLocationDelta delta' ++ s') :
    delta = delta' ∧ s = s' := by
  unfold writeVehicleLocationDelta at h
  simp only [List.append_assoc, signed_append_inj] at h
  obtain ⟨hlat, hlong, hs⟩ := h
  have hinj : ∀ x y : BitVec 16, (-512 ≤ x.toInt ∧ x.toInt ≤ 511) →
      (-512 ≤ y.toInt ∧ y.toInt ≤ 511) → (x.toInt + 512) % 2 ^ 10 = (y.toInt + 512) % 2 ^ 10 →
      x = y := by
    intro x y hx hy hxy
    rw [Int.emod_eq_of_lt (by omega) (by omega), Int.emod_eq_of_lt (by omega) (by omega)] at hxy
    exact BitVec.eq_of_toInt_eq (by omega)
  have h1 := hinj _ _ hd.latitude hd'.latitude hlat
  have h2 := hinj _ _ hd.longitude hd'.longitude hlong
  cases delta
  cases delta'
  simp_all

/-- The flags; version 3 does not write the two that it demands to be set. -/
theorem optionals_append_inj {d d' : ECallMsdData} {pdu pdu' : List Nat} (h : Encodes d pdu)
    (h' : Encodes d' pdu') (hv : d.msdVersion = d'.msdVersion) {s s' : List Bool}
    (heq : writeOptionals d ++ s = writeOptionals d' ++ s') :
    d.optionals = d'.optionals ∧ s = s' := by
  have hext : ∀ o o' : ECallMsdOptionals, o.optionalDataPresent = o'.optionalDataPresent →
      o.recentVehicleLocationN1Present = o'.recentVehicleLocationN1Present →
      o.recentVehicleLocationN2Present = o'.recentVehicleLocationN2Present →
      o.numberOfPassengersPresent = o'.numberOfPassengersPresent → o = o' := by
    intro o o' h1 h2 h3 h4
    cases o
    cases o'
    simp_all
  unfold writeOptionals at heq
  rcases h.version with h2 | h3
  · have h2' : d'.msdVersion = 2 := hv ▸ h2
    simp only [h2, h2', ↓reduceIte, List.append_assoc, List.append_cancel_left_eq,
      flag_append_inj] at heq
    obtain ⟨hopt, hn1, hn2, hpass, hs⟩ := heq
    exact ⟨hext _ _ hopt hn1 hn2 hpass, hs⟩
  · have h3' : d'.msdVersion = 3 := hv ▸ h3
    simp only [h3, h3', show ¬ (3 : BitVec 8) = 2 by decide, ↓reduceIte, List.append_assoc,
      List.append_cancel_left_eq, flag_append_inj, List.nil_append] at heq
    obtain ⟨hopt, hpass, hs⟩ := heq
    obtain ⟨hn1, hn2⟩ := h.locations h3
    obtain ⟨hn1', hn2'⟩ := h'.locations h3'
    exact ⟨hext _ _ hopt (hn1.trans hn1'.symm) (hn2.trans hn2'.symm) hpass, hs⟩

theorem control_append_inj {d d' : ECallMsdData} (hv : d.msdVersion = d'.msdVersion)
    {s s' : List Bool} (h : writeControl d ++ s = writeControl d' ++ s') :
    d.control = d'.control ∧ s = s' := by
  have hext : ∀ c c' : ECallMsdControlBits, c.automaticActivation = c'.automaticActivation →
      c.testCall = c'.testCall → c.positionCanBeTrusted = c'.positionCanBeTrusted →
      c.vehicleType = c'.vehicleType → c = c' := by
    intro c c' h1 h2 h3 h4
    cases c
    cases c'
    simp_all
  unfold writeControl at h
  rw [hv] at h
  simp only [List.append_assoc, flag_append_inj, List.append_cancel_left_eq,
    bitVec_append_inj] at h
  obtain ⟨hauto, htest, htrust, htype, hs⟩ := h
  exact ⟨hext _ _ hauto htest htrust htype, hs⟩

/-- A field that is there under a condition. -/
theorem ite_append_inj {c : Prop} [Decidable c] {a a' s s' : List Bool} {P : Prop}
    (hinj : ∀ t t', a ++ t = a' ++ t' → P ∧ t = t')
    (h : (if c then a else []) ++ s = (if c then a' else []) ++ s') : (c → P) ∧ s = s' := by
  by_cases hc : c
  · rw [if_pos hc, if_pos hc] at h
    obtain ⟨hP, hs⟩ := hinj s s' h
    exact ⟨fun _ => hP, hs⟩
  · rw [if_neg hc, if_neg hc] at h
    exact ⟨fun hpos => absurd hpos hc, h⟩

theorem recent_append_inj {d d' : ECallMsdData} (hd : WellFormed d) (hd' : WellFormed d')
    (hv : d.msdVersion = d'.msdVersion) (ho : d.optionals = d'.optionals) {s s' : List Bool}
    (h : writeRecent d ++ s = writeRecent d' ++ s') :
    (d.optionals.recentVehicleLocationN1Present = true →
        d.recentVehicleLocationN1 = d'.recentVehicleLocationN1) ∧
      (d.optionals.recentVehicleLocationN2Present = true →
        d.recentVehicleLocationN2 = d'.recentVehicleLocationN2) ∧
      (d.optionals.numberOfPassengersPresent = true →
        d.numberOfPassengers = d'.numberOfPassengers) ∧ s = s' := by
  unfold writeRecent at h
  rw [← hv, ← ho] at h
  simp only [List.append_assoc] at h
  obtain ⟨hn1, h⟩ := ite_append_inj (fun _ _ => delta_append_inj hd.n1 hd'.n1) h
  obtain ⟨hn2, h⟩ := ite_append_inj (fun _ _ => delta_append_inj hd.n2 hd'.n2) h
  obtain ⟨hpass, hs⟩ := ite_append_inj (fun _ _ => bitVec_append_inj.mp) h
  exact ⟨fun hp => hn1 (.inl hp), fun hp => hn2 (.inl hp), hpass, hs⟩

theorem flatMap_signed_append_inj {a b : List Int} (hlen : a.length = b.length)
    {s s' : List Bool} (h : a.flatMap (signed 8) ++ s = b.flatMap (signed 8) ++ s') :
    a.map (· % 2 ^ 8) = b.map (· % 2 ^ 8) ∧ s = s' := by
  induction a generalizing b with
  | nil =>
    obtain rfl : b = [] := List.length_eq_zero_iff.mp hlen.symm
    exact ⟨rfl, h⟩
  | cons x a ih =>
    cases b with
    | nil => cases hlen
    | cons y b =>
      simp only [List.flatMap_cons, List.append_assoc, signed_append_inj] at h
      obtain ⟨hxy, hrest⟩ := h
      obtain ⟨hmap, hs⟩ := ih (Nat.succ.inj hlen) hrest
      exact ⟨by simp only [List.map_cons, hxy, hmap], hs⟩

/-- Both lengths are written, so the two parts of the additional data are told apart. -/
theorem additionalData_append_inj {o o' : ECallOptionalPdu} (h : AdditionalDataOk o)
    (h' : AdditionalDataOk o') (hoid : (encodedOid o.oid).length < 2 ^ 8)
    (hoid' : (encodedOid o'.oid).length < 2 ^ 8) (hdata : ∀ c ∈ o.data, isHexChar c)
    (hdata' : ∀ c ∈ o'.data, isHexChar c) {s s' : List Bool}
    (heq : additionalData o ++ s = additionalData o' ++ s') :
    (oidOctets o.oid = oidOctets o'.oid ∧ o.data = o'.data) ∧ s = s' := by
  have hlt : ∀ {p : ECallOptionalPdu}, AdditionalDataOk p → p.data.length / 2 < 2 ^ 8 := by
    intro p hp
    have := hp.bounded
    unfold maxOadLength at this
    omega
  unfold additionalData at heq
  simp only [List.append_assoc] at heq
  rw [toBits_append_inj hoid hoid'] at heq
  obtain ⟨hlen, heq⟩ := heq
  obtain ⟨hoctets, heq⟩ := flatMap_signed_append_inj hlen heq
  rw [toBits_append_inj (hlt h) (hlt h')] at heq
  obtain ⟨hhalf, heq⟩ := heq
  have hdlen : o.data.length = o'.data.length := by
    have := h.even
    have := h'.even
    omega
  obtain ⟨hd, hs⟩ := writePrintableString_append_inj true (P := isHexChar)
    (fun c hc => convertChar_lt_of_isHexChar hc)
    (fun c c' hc hc' => convertChar_inj (isVinChar_of_isHexChar hc) (isVinChar_of_isHexChar hc'))
    hdata hdata' hdlen heq
  exact ⟨⟨hoctets, hd⟩, hs⟩

/-! ## The message -/

theorem Encodes.length_encodedOid {d : ECallMsdData} {pdu : List Nat} (h : Encodes d pdu)
    (hp : d.optionals.optionalDataPresent = true) :
    (encodedOid d.optionalPdu.oid).length < 2 ^ 8 := by
  have hlen := h.length_eq
  have hbound := h.bounded
  have hadd : (additionalOf d).length = (additionalData d.optionalPdu).length := by
    rw [additionalOf, if_pos hp]
  rw [length_additionalData] at hadd
  unfold octetsFor writtenBits at hlen
  unfold msdPduSize at hbound
  omega

/-- Equal messages come from data that agree in everything the message carries. -/
theorem agree_of_same_pdu (d d' : ECallMsdData) (out out' pdu : List Nat) (hd : WellFormed d)
    (hd' : WellFormed d') (h : generateECallMsd d out = (.success, pdu))
    (h' : generateECallMsd d' out' = (.success, pdu)) : Agree d d' := by
  have henc := encodes_of_success h
  have henc' := encodes_of_success h'
  have heq := henc.octetBits_eq.symm.trans henc'.octetBits_eq
  generalize padding (content d) = pad at heq
  generalize padding (content d') = pad' at heq
  unfold content msdPdu at heq
  simp only [List.append_assoc] at heq
  obtain ⟨hversion, heq⟩ := bitVec_append_inj.mp heq
  obtain ⟨-, heq⟩ := (append_inj_of_length (by simp)).mp heq
  obtain ⟨hoptionals, heq⟩ := optionals_append_inj henc henc' hversion heq
  obtain ⟨hidentifier, heq⟩ := bitVec_append_inj.mp heq
  obtain ⟨hcontrol, heq⟩ := control_append_inj hversion heq
  obtain ⟨hvin, heq⟩ := vin_append_inj hd.vin hd'.vin heq
  obtain ⟨hstorage, heq⟩ := storage_append_inj heq
  obtain ⟨htimestamp, heq⟩ := bitVec_append_inj.mp heq
  obtain ⟨hlocation, heq⟩ := location_append_inj heq
  obtain ⟨hdirection, heq⟩ := bitVec_append_inj.mp heq
  obtain ⟨hn1, hn2, hpassengers, heq⟩ := recent_append_inj hd hd' hversion hoptionals heq
  have hadditional : d.optionals.optionalDataPresent = true →
      oidOctets d.optionalPdu.oid = oidOctets d'.optionalPdu.oid ∧
        d.optionalPdu.data = d'.optionalPdu.data := by
    intro hp
    have hp' : d'.optionals.optionalDataPresent = true := hoptionals ▸ hp
    rw [additionalOf, additionalOf, if_pos hp, if_pos hp'] at heq
    exact (additionalData_append_inj (henc.additional hp) (henc'.additional hp')
      (henc.length_encodedOid hp) (henc'.length_encodedOid hp') hd.data hd'.data heq).1
  exact ⟨hversion, hoptionals, hidentifier, hcontrol, hvin, hstorage, htimestamp, hlocation,
    hdirection, hn1, hn2, hpassengers, fun hp => (hadditional hp).1, fun hp => (hadditional hp).2⟩

/-- The number of passengers is not in the message when it is not present. -/
theorem agree_without_passengers :
    (generateECallMsd dataWithVin []).1 = .success ∧
      generateECallMsd { dataWithVin with numberOfPassengers := 5 } [] =
        generateECallMsd dataWithVin [] ∧
      Agree dataWithVin { dataWithVin with numberOfPassengers := 5 } := by
  have hsuccess : (generateECallMsd dataWithVin []).1 = .success := by decide +kernel
  have hsame : generateECallMsd { dataWithVin with numberOfPassengers := 5 } [] =
      generateECallMsd dataWithVin [] := by decide +kernel
  have hrun : generateECallMsd dataWithVin [] =
      (.success, (generateECallMsd dataWithVin []).2) := by
    rw [← hsuccess]
  have hvin : VinOk dataWithVin.vehicleIdentificationNumber := by
    constructor <;> (unfold isVinChar; decide +kernel)
  have hdelta : DeltaOk ⟨0, 0⟩ := ⟨by decide, by decide⟩
  refine ⟨hsuccess, hsame, ?_⟩
  exact agree_of_same_pdu dataWithVin { dataWithVin with numberOfPassengers := 5 } [] [] _
    ⟨hvin, hdelta, hdelta, fun c hc => nomatch hc⟩ ⟨hvin, hdelta, hdelta, fun c hc => nomatch hc⟩
    hrun (hsame.trans hrun)

end SatComm.ECall
