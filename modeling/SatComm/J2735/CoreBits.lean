import SatComm.J2735.RoundTrip

/-!
# The core as a bit string

The fast path writes the core in words of 32 bits, with masks and shifts of its own for every
field, and reads it back in the same way. Word by word its shifts append the parts of the fields
that fall into the word, so the core is the bit string of its fields, one after the other. Every
mask of the decoder cuts the window of its field out of the words. The brake status alone is
read as 16 bits: its padding bit is the top bit of the vehicle width.
-/

namespace SatComm.J2735

open Bits Asnbuf Abuf

/-! ## The fields -/

/-- The fields of the core, their offsets subtracted. The extension bit and the bit for regional
content are never set. -/
def coreFields (v : BsmValue) : List Field :=
  let c := v.core
  [⟨1, 0⟩, ⟨1, v.hasPartII.toNat⟩, ⟨1, 0⟩, ⟨7, c.msgCount⟩, ⟨32, c.id⟩, ⟨16, c.secMarkMs⟩,
    ⟨31, u32 (c.latitude - -900000000)⟩, ⟨32, u32 (c.longitude - -1799999999)⟩,
    ⟨16, u32 (c.elevation - -4096)⟩, ⟨8, c.semiMajorAxisAccuracy⟩, ⟨8, c.semiMinorAxisAccuracy⟩,
    ⟨16, c.semiMajorAxisOrientation⟩, ⟨3, c.transmissionState⟩, ⟨13, c.speed⟩,
    ⟨15, c.headingDegrees⟩, ⟨8, u32 (c.steeringWheelAngle - -126)⟩, ⟨12, u32 (c.accelLon - -2000)⟩,
    ⟨12, u32 (c.accelLat - -2000)⟩, ⟨8, u32 (c.accelVert - -127)⟩, ⟨16, u32 (c.accelYaw - -32767)⟩,
    ⟨15, c.brakes >>> 1⟩, ⟨10, c.vehicleWidthCm⟩, ⟨12, c.vehicleLengthCm⟩]

/-- Every field of the core lies inside its width, and the padding bit of the brake status is
clear. -/
structure Core.InWidth (c : Core) : Prop where
  msgCount : c.msgCount < 2 ^ 7
  id : c.id < 2 ^ 32
  secMarkMs : c.secMarkMs < 2 ^ 16
  latitude : -900000000 ≤ c.latitude ∧ c.latitude - -900000000 < 2 ^ 31
  longitude : -1799999999 ≤ c.longitude ∧ c.longitude < 2 ^ 31
  elevation : -4096 ≤ c.elevation ∧ c.elevation - -4096 < 2 ^ 16
  semiMajorAxisAccuracy : c.semiMajorAxisAccuracy < 2 ^ 8
  semiMinorAxisAccuracy : c.semiMinorAxisAccuracy < 2 ^ 8
  semiMajorAxisOrientation : c.semiMajorAxisOrientation < 2 ^ 16
  transmissionState : c.transmissionState < 2 ^ 3
  speed : c.speed < 2 ^ 13
  headingDegrees : c.headingDegrees < 2 ^ 15
  steeringWheelAngle : -126 ≤ c.steeringWheelAngle ∧ c.steeringWheelAngle - -126 < 2 ^ 8
  accelLon : -2000 ≤ c.accelLon ∧ c.accelLon - -2000 < 2 ^ 12
  accelLat : -2000 ≤ c.accelLat ∧ c.accelLat - -2000 < 2 ^ 12
  accelVert : -127 ≤ c.accelVert ∧ c.accelVert - -127 < 2 ^ 8
  accelYaw : -32767 ≤ c.accelYaw ∧ c.accelYaw - -32767 < 2 ^ 16
  brakes : c.brakes < 2 ^ 16 ∧ c.brakes % 2 = 0
  vehicleWidthCm : c.vehicleWidthCm < 2 ^ 10
  vehicleLengthCm : c.vehicleLengthCm < 2 ^ 12

theorem u32_sub_lt {x d : Int} {w : Nat} (h : d ≤ x ∧ x - d < 2 ^ w) (hw : w ≤ 32) :
    u32 (x - d) < 2 ^ w := by
  have hpow : (2 : Int) ^ w ≤ 2 ^ 32 := pow_le_pow_right₀ (by decide) hw
  have heq := u32_of_nonneg (x := x - d) (by omega) (by omega)
  have hlt : ((u32 (x - d) : Nat) : Int) < 2 ^ w := heq.trans_lt h.2
  exact_mod_cast hlt

/-! ## Shifts that append -/

/-- Fields shifted in behind a number, one after the other. -/
def shiftIn (x : Nat) (fields : List Field) : Nat :=
  fields.foldl (fun x f => x <<< f.width ||| f.value) x

theorem toBits_shiftLeft_or {n w x v : Nat} (hv : v < 2 ^ w) :
    toBits (n + w) (x <<< w ||| v) = toBits n x ++ toBits w v := by
  have hhigh : (x <<< w ||| v) >>> w = x := by
    rw [Nat.shiftRight_or_distrib, Nat.shiftLeft_shiftRight, Nat.shiftRight_eq_div_pow v,
      Nat.div_eq_of_lt hv, Nat.or_zero]
  have hlow : toBits w (x <<< w ||| v) = toBits w v := by
    apply toBits_eq_of_testBit
    intro i hi
    rw [Nat.testBit_or, Nat.testBit_shiftLeft]
    simp [show ¬ w ≤ i by omega]
  rw [toBits_add, hhigh, hlow]

/-- Only the low bits of the number in front count. -/
theorem toBits_shiftIn (n x : Nat) (fields : List Field) (h : ∀ f ∈ fields, f.value < 2 ^ f.width) :
    toBits (n + fieldWidth fields) (shiftIn x fields) = toBits n x ++ fieldBits fields := by
  induction fields generalizing n x with
  | nil => simp [shiftIn, fieldWidth, fieldBits]
  | cons f fs ih =>
    rw [shiftIn, List.foldl_cons, ← shiftIn, fieldWidth_cons, fieldBits_cons, ← Nat.add_assoc,
      ih (n + f.width) _ (fun g hg => h g (List.mem_cons_of_mem f hg)),
      toBits_shiftLeft_or (h f List.mem_cons_self), List.append_assoc]

theorem octetBits_wordOctets (w : Nat) : octetBits (wordOctets w) = toBits 32 w := by
  have hsplit : toBits 32 w =
      toBits 8 (w >>> 24) ++ (toBits 8 (w >>> 16) ++ (toBits 8 (w >>> 8) ++ toBits 8 w)) := by
    rw [show 32 = 8 + (8 + (8 + 8)) from rfl, toBits_add, toBits_add 8 (8 + 8),
      toBits_add 8 8 w]
  have hmod : ∀ x, toBits 8 (x % 256) = toBits 8 x := fun x => toBits_mod 8 x
  rw [hsplit, wordOctets]
  simp only [octetBits_cons, octetBits_nil, hmod, List.append_nil]

/-- A word, by the fields shifted into it. -/
theorem octetBits_word {w n x : Nat} {fields : List Field} (hw : w = shiftIn x fields)
    (hn : n + fieldWidth fields = 32) (h : ∀ f ∈ fields, f.value < 2 ^ f.width) :
    octetBits (wordOctets (w % 2 ^ 32)) = toBits n x ++ fieldBits fields := by
  rw [octetBits_wordOctets, toBits_mod, hw, ← hn, toBits_shiftIn n x fields h]

theorem shiftRight_lt {x a b : Nat} (h : x < 2 ^ (b + a)) : x >>> a < 2 ^ b := by
  rw [Nat.shiftRight_eq_div_pow, Nat.div_lt_iff_lt_mul (by positivity), ← Nat.pow_add]
  exact h

/-! ## The words -/

variable {v : BsmValue}

/-- The parts of the fields in each word, the last five bits of the core left out. -/
theorem fieldBits_coreFields (v : BsmValue) :
    let c := v.core
    let lat := u32 (c.latitude - -900000000)
    let lon := u32 (c.longitude - -1799999999)
    let ele := u32 (c.elevation - -4096)
    let accLat := u32 (c.accelLat - -2000)
    fieldBits (coreFields v) =
      (toBits 1 0 ++
        fieldBits [⟨1, v.hasPartII.toNat⟩, ⟨1, 0⟩, ⟨7, c.msgCount⟩, ⟨22, c.id >>> 10⟩]) ++
      ((toBits 10 c.id ++ fieldBits [⟨16, c.secMarkMs⟩, ⟨6, lat >>> 25⟩]) ++
      ((toBits 25 lat ++ fieldBits [⟨7, lon >>> 25⟩]) ++
      ((toBits 25 lon ++ fieldBits [⟨7, ele >>> 9⟩]) ++
      ((toBits 9 ele ++ fieldBits [⟨8, c.semiMajorAxisAccuracy⟩, ⟨8, c.semiMinorAxisAccuracy⟩,
        ⟨7, c.semiMajorAxisOrientation >>> 9⟩]) ++
      ((toBits 9 c.semiMajorAxisOrientation ++ fieldBits [⟨3, c.transmissionState⟩, ⟨13, c.speed⟩,
        ⟨7, c.headingDegrees >>> 8⟩]) ++
      ((toBits 8 c.headingDegrees ++ fieldBits [⟨8, u32 (c.steeringWheelAngle - -126)⟩,
        ⟨12, u32 (c.accelLon - -2000)⟩, ⟨4, accLat >>> 8⟩]) ++
      ((toBits 8 accLat ++ fieldBits [⟨8, u32 (c.accelVert - -127)⟩,
        ⟨16, u32 (c.accelYaw - -32767)⟩]) ++
      ((toBits 15 (c.brakes >>> 1) ++ fieldBits [⟨10, c.vehicleWidthCm⟩,
        ⟨7, c.vehicleLengthCm >>> 5⟩]) ++ toBits 5 c.vehicleLengthCm)))))))) := by
  have hid := toBits_add 22 10 v.core.id
  have hlat := toBits_add 6 25 (u32 (v.core.latitude - -900000000))
  have hlon := toBits_add 7 25 (u32 (v.core.longitude - -1799999999))
  have hele := toBits_add 7 9 (u32 (v.core.elevation - -4096))
  have hori := toBits_add 7 9 v.core.semiMajorAxisOrientation
  have hhead := toBits_add 7 8 v.core.headingDegrees
  have hacc := toBits_add 4 8 (u32 (v.core.accelLat - -2000))
  have hveh := toBits_add 7 5 v.core.vehicleLengthCm
  simp only [coreFields, fieldBits_cons, fieldBits_nil, List.append_assoc, List.append_nil]
  simp only [Nat.reduceAdd] at hid hlat hlon hele hori hhead hacc hveh
  simp only [hid, hlat, hlon, hele, hori, hhead, hacc, hveh, List.append_assoc]

theorem forall_fits_cons {f : Field} {fs : List Field} :
    (∀ g ∈ f :: fs, g.value < 2 ^ g.width) ↔
      f.value < 2 ^ f.width ∧ ∀ g ∈ fs, g.value < 2 ^ g.width := List.forall_mem_cons

theorem forall_fits_nil : ∀ g ∈ ([] : List Field), g.value < 2 ^ g.width := by simp

/-- The first word, with the flags. -/
theorem octetBits_flags {partII : Bool} {count id : Nat} (hcount : count < 2 ^ 7)
    (hid : id < 2 ^ 22) :
    octetBits (wordOctets
      (((if partII then 0x40000000 else 0) ||| count <<< 22 ||| id) % 2 ^ 32)) =
      toBits 1 0 ++ fieldBits [⟨1, partII.toNat⟩, ⟨1, 0⟩, ⟨7, count⟩, ⟨22, id⟩] := by
  refine octetBits_word ?_ rfl (forall_fits_cons.mpr ⟨Bool.toNat_lt partII, forall_fits_cons.mpr
    ⟨by decide, forall_fits_cons.mpr ⟨hcount, forall_fits_cons.mpr ⟨hid, forall_fits_nil⟩⟩⟩⟩)
  have hflag : (if partII then 0x40000000 else 0) = partII.toNat <<< 30 := by
    cases partII <;> rfl
  rw [hflag]
  simp only [shiftIn, List.foldl_cons, List.foldl_nil, Nat.shiftLeft_or_distrib,
    ← Nat.shiftLeft_add, Nat.zero_shiftLeft, Nat.zero_or, Nat.or_zero, Nat.reduceAdd]

/-- A word of the end of one field and the start of another one. -/
theorem octetBits_two {n w x y : Nat} (hn : n + w = 32) (hy : y < 2 ^ w) :
    octetBits (wordOctets ((x <<< w ||| y) % 2 ^ 32)) = toBits n x ++ fieldBits [⟨w, y⟩] :=
  octetBits_word rfl (by simpa using hn) (forall_fits_cons.mpr ⟨hy, forall_fits_nil⟩)

theorem octetBits_three {n a b x y z : Nat} (hn : n + (a + b) = 32) (hy : y < 2 ^ a)
    (hz : z < 2 ^ b) :
    octetBits (wordOctets ((x <<< (a + b) ||| y <<< b ||| z) % 2 ^ 32)) =
      toBits n x ++ fieldBits [⟨a, y⟩, ⟨b, z⟩] := by
  refine octetBits_word ?_ (by simpa using hn)
    (forall_fits_cons.mpr ⟨hy, forall_fits_cons.mpr ⟨hz, forall_fits_nil⟩⟩)
  simp only [shiftIn, List.foldl_cons, List.foldl_nil, Nat.shiftLeft_or_distrib,
    ← Nat.shiftLeft_add]

theorem octetBits_four {n a b d x y z u : Nat} (hn : n + (a + (b + d)) = 32)
    (hy : y < 2 ^ a) (hz : z < 2 ^ b) (hu : u < 2 ^ d) :
    octetBits (wordOctets
      ((x <<< (a + b + d) ||| y <<< (b + d) ||| z <<< d ||| u) % 2 ^ 32)) =
      toBits n x ++ fieldBits [⟨a, y⟩, ⟨b, z⟩, ⟨d, u⟩] := by
  refine octetBits_word ?_ (by simpa using hn) (forall_fits_cons.mpr
    ⟨hy, forall_fits_cons.mpr ⟨hz, forall_fits_cons.mpr ⟨hu, forall_fits_nil⟩⟩⟩)
  simp only [shiftIn, List.foldl_cons, List.foldl_nil, Nat.shiftLeft_or_distrib,
    ← Nat.shiftLeft_add]

/-- The words of the core hold its fields. -/
theorem coreBits_eq (h : v.core.InWidth) : coreBits v = fieldBits (coreFields v) := by
  have hlat := u32_sub_lt (w := 31) h.latitude (by decide)
  have hlon : u32 (v.core.longitude - -1799999999) < 2 ^ 32 :=
    u32_sub_lt (w := 32) ⟨h.longitude.1, by have := h.longitude.2; omega⟩ (by decide)
  have hele := u32_sub_lt (w := 16) h.elevation (by decide)
  have hswa := u32_sub_lt (w := 8) h.steeringWheelAngle (by decide)
  have haccLon := u32_sub_lt (w := 12) h.accelLon (by decide)
  have haccLat := u32_sub_lt (w := 12) h.accelLat (by decide)
  have haccVert := u32_sub_lt (w := 8) h.accelVert (by decide)
  have haccYaw := u32_sub_lt (w := 16) h.accelYaw (by decide)
  -- the padding bit is clear, so the status can be moved on by one
  have hbrakes : v.core.brakes <<< 16 = (v.core.brakes >>> 1) <<< 17 := by
    have := h.brakes.2
    rw [Nat.shiftLeft_eq, Nat.shiftLeft_eq, Nat.shiftRight_eq_div_pow]
    omega
  rw [fieldBits_coreFields, coreBits, coreWords]
  simp only [List.map_cons, List.map_nil, List.flatMap_cons, List.flatMap_nil, octetBits_append,
    List.append_nil]
  rw [octetBits_flags h.msgCount (shiftRight_lt h.id),
    octetBits_three (n := 10) (a := 16) (b := 6) rfl h.secMarkMs (shiftRight_lt hlat),
    octetBits_two (n := 25) (w := 7) rfl (shiftRight_lt hlon),
    octetBits_two (n := 25) (w := 7) rfl (shiftRight_lt hele),
    octetBits_four (n := 9) (a := 8) (b := 8) (d := 7) rfl h.semiMajorAxisAccuracy
      h.semiMinorAxisAccuracy (shiftRight_lt h.semiMajorAxisOrientation),
    octetBits_four (n := 9) (a := 3) (b := 13) (d := 7) rfl h.transmissionState h.speed
      (shiftRight_lt h.headingDegrees),
    octetBits_four (n := 8) (a := 8) (b := 12) (d := 4) rfl hswa haccLon (shiftRight_lt haccLat),
    octetBits_three (n := 8) (a := 8) (b := 16) rfl haccVert haccYaw, hbrakes,
    octetBits_three (n := 15) (a := 10) (b := 7) rfl h.vehicleWidthCm
      (shiftRight_lt h.vehicleLengthCm)]
  simp only [List.append_assoc]

/-! ## The masks -/

variable {m : Mem} {p q : Nat}

theorem word_eq_field (m : Mem) (p : Nat) : word m p = m.field (8 * p) 32 := by
  rw [word, show 32 = 8 + (8 + (8 + 8)) from rfl, field_whole, field_whole, field_whole,
    Mem.field_byte]
  simp only [Nat.shiftLeft_or_distrib, ← Nat.shiftLeft_add, Nat.lor_assoc, Nat.add_assoc]

/-- The last bits of a window. -/
theorem field_mod (m : Mem) (p a n : Nat) : m.field p (a + n) % 2 ^ n = m.field (p + a) n := by
  have hlt := m.field_lt (p + a) n
  rw [Mem.field_add, ← Nat.shiftLeft_add_eq_or_of_lt hlt, Nat.shiftLeft_eq, Nat.mul_comm,
    Nat.mul_add_mod, Nat.mod_eq_of_lt hlt]

theorem field_shiftRight (m : Mem) (p n a : Nat) : m.field p (n + a) >>> a = m.field p n := by
  have hlt := m.field_lt (p + n) a
  rw [Mem.field_add, Nat.shiftRight_or_distrib, Nat.shiftLeft_shiftRight,
    Nat.shiftRight_eq_div_pow (m.field (p + n) a), Nat.div_eq_of_lt hlt, Nat.or_zero]

/-- A mask and a shift cut a window out of a word. -/
theorem word_window {k n s : Nat} (hk : k = (1 <<< n - 1) <<< s)
    (hq : q + n + s = 8 * p + 32) (hp : 8 * p ≤ q) : (word m p &&& k) >>> s = m.field q n := by
  obtain ⟨a, rfl⟩ := Nat.exists_eq_add_of_le hp
  have hwidth : (32 : Nat) = a + n + s := by omega
  rw [hk, word_eq_field, Nat.shiftRight_and_distrib, Nat.shiftLeft_shiftRight,
    Nat.one_shiftLeft, Nat.and_two_pow_sub_one_eq_mod, hwidth, field_shiftRight, field_mod]

/-- A field that crosses the end of a word. -/
theorem word_crossing {k k' n n' s : Nat} (hk : k = 1 <<< n - 1)
    (hk' : k' = (1 <<< n' - 1) <<< s) (hq : q + n = 8 * p + 32) (hp : 8 * p ≤ q)
    (hs : n' + s = 32) :
    (word m p &&& k) <<< n' ||| (word m (p + 4) &&& k') >>> s = m.field q (n + n') := by
  have hfirst : word m p &&& k = m.field q n := by
    have h := word_window (m := m) (q := q) (p := p) (s := 0) (n := n) (k := k)
      (by rw [hk, Nat.shiftLeft_zero]) (by omega) hp
    rwa [Nat.shiftRight_zero] at h
  rw [hfirst, word_window hk' (show 8 * (p + 4) + n' + s = 8 * (p + 4) + 32 by omega) le_rfl,
    Mem.field_add, show q + n = 8 * (p + 4) by omega]

/-- The fast parse reads the windows of the fields. -/
theorem decodeCore_eq (m : Mem) (p : Nat) {len : Nat} (hlen : 37 ≤ len) :
    decodeCore m p len =
      { msgCount := m.field (8 * p + 3) 7
        id := m.field (8 * p + 10) 32
        secMarkMs := m.field (8 * p + 42) 16
        latitude := withOffset (m.field (8 * p + 58) 31) (-900000000)
        longitude := withOffset (m.field (8 * p + 89) 32) (-1799999999)
        elevation := withOffset (m.field (8 * p + 121) 16) (-4096)
        semiMajorAxisAccuracy := m.field (8 * p + 137) 8
        semiMinorAxisAccuracy := m.field (8 * p + 145) 8
        semiMajorAxisOrientation := m.field (8 * p + 153) 16
        transmissionState := m.field (8 * p + 169) 3
        speed := m.field (8 * p + 172) 13
        headingDegrees := m.field (8 * p + 185) 15
        steeringWheelAngle := withOffset (m.field (8 * p + 200) 8) (-126)
        accelLon := withOffset (m.field (8 * p + 208) 12) (-2000)
        accelLat := withOffset (m.field (8 * p + 220) 12) (-2000)
        accelVert := withOffset (m.field (8 * p + 232) 8) (-127)
        accelYaw := withOffset (m.field (8 * p + 240) 16) (-32767)
        brakes := m.field (8 * p + 256) 16
        vehicleWidthCm := m.field (8 * p + 271) 10
        vehicleLengthCm := m.field (8 * p + 281) 12 } := by
  have hyaw : word m (p + 4 * 7) &&& 0x0000ffff = m.field (8 * p + 240) 16 := by
    have h := word_window (m := m) (q := 8 * p + 240) (p := p + 4 * 7) (n := 16) (s := 0)
      (k := 0x0000ffff) rfl (by omega) (by omega)
    rwa [Nat.shiftRight_zero] at h
  have hbrakes : m.byte (p + 32) <<< 8 ||| m.byte (p + 33) = m.field (8 * p + 256) 16 := by
    rw [show 8 * p + 256 = 8 * (p + 32) by omega, show (16 : Nat) = 8 + 8 from rfl, field_whole,
      Mem.field_byte]
  have hlength : (word m (p + 4 * 8) &&& 0x7f) <<< 5 ||| (m.byte (p + 36) &&& 0xf8) >>> 3 =
      m.field (8 * p + 281) 12 := by
    have hfirst := word_window (m := m) (q := 8 * p + 281) (p := p + 4 * 8) (n := 7) (s := 0)
      (k := 0x7f) rfl (by omega) (by omega)
    have hlast := maskedBits_eq_field m (p + 36) (n := 5) (by decide)
    rw [Nat.shiftRight_zero] at hfirst
    rw [show (12 : Nat) = 7 + 5 from rfl, Mem.field_add, hfirst,
      show 8 * p + 281 + 7 = 8 * (p + 36) by omega, ← hlast]
    rfl
  have hcore : 36 < len := hlen
  simp only [decodeCore, if_pos hcore]
  congr 1
  · exact word_window rfl (by omega) (by omega)
  · exact word_crossing rfl rfl (by omega) (by omega) rfl
  · exact word_window rfl (by omega) (by omega)
  · exact congrArg (withOffset · _) (word_crossing rfl rfl (by omega) (by omega) rfl)
  · exact congrArg (withOffset · _) (word_crossing rfl rfl (by omega) (by omega) rfl)
  · exact congrArg (withOffset · _) (word_crossing rfl rfl (by omega) (by omega) rfl)
  · exact word_window rfl (by omega) (by omega)
  · exact word_window rfl (by omega) (by omega)
  · exact word_crossing rfl rfl (by omega) (by omega) rfl
  · exact word_window rfl (by omega) (by omega)
  · exact word_window rfl (by omega) (by omega)
  · exact word_crossing rfl rfl (by omega) (by omega) rfl
  · exact congrArg (withOffset · _) (word_window rfl (by omega) (by omega))
  · exact congrArg (withOffset · _) (word_window rfl (by omega) (by omega))
  · exact congrArg (withOffset · _) (word_crossing rfl rfl (by omega) (by omega) rfl)
  · exact congrArg (withOffset · _) (word_window rfl (by omega) (by omega))
  · exact congrArg (withOffset · _) hyaw
  · exact word_window rfl (by omega) (by omega)

theorem word_flag {n s : Nat} (hn : n = 1 <<< s) (hq : q + 1 + s = 8 * p + 32) (hp : 8 * p ≤ q) :
    word m p &&& n ≠ 0 ↔ m.field q 1 = 1 := by
  have hwindow := word_window (m := m) (k := n) (n := 1) (s := s) hn hq hp
  have hlt := m.field_lt q 1
  rw [hn, Nat.one_shiftLeft, Nat.and_two_pow] at hwindow ⊢
  cases hbit : (word m p).testBit s with
  | false =>
    rw [hbit, Bool.toNat_false, Nat.zero_mul, Nat.zero_shiftRight] at hwindow
    simp [← hwindow]
  | true =>
    rw [hbit, Bool.toNat_true, Nat.one_mul, Nat.shiftRight_eq_div_pow,
      Nat.div_self (by positivity)] at hwindow
    simp [← hwindow]

/-! ## Written and read back -/

/-- What the fast parse makes of the core: the padding bit of the brake status takes the top bit
of the vehicle width. -/
def Core.padded (c : Core) : Core := { c with brakes := c.brakes ||| c.vehicleWidthCm >>> 9 }

theorem fieldWidth_coreFields (v : BsmValue) : fieldWidth (coreFields v) = 293 := by
  simp [coreFields]

/-- A status of sixteen bits whose last bit is padding that is not there: the bit behind the status
is the first one of the width. -/
theorem field_with_padding {status width q : Nat} (heven : status % 2 = 0)
    (hstatus : m.field q 15 = status >>> 1) (hwidth : m.field (q + 15) 10 = width) :
    m.field q 16 = status ||| width >>> 9 := by
  have hlow : m.field (q + 15) 1 = width >>> 9 := by
    rw [← hwidth, show (10 : Nat) = 1 + 9 from rfl, field_shiftRight]
  have hshift : (status >>> 1) <<< 1 = status := by
    rw [Nat.shiftLeft_eq, Nat.shiftRight_eq_div_pow]
    omega
  rw [show (16 : Nat) = 15 + 1 from rfl, Mem.field_add, hstatus, hshift, hlow]

/-- The fast parse of the fields of a core. -/
theorem decodeCore_of_coreFields (h : v.core.InWidth) {len : Nat} (hlen : 37 ≤ len)
    (hbits : m.bits (8 * p) 293 = fieldBits (coreFields v)) :
    decodeCore m p len = v.core.padded ∧ ¬ isExtended m p ∧
      (announcesPartII m p ↔ v.hasPartII = true) ∧ ¬ announcesRegional m p := by
  have hc : Carries m (8 * p) (coreFields v) := by
    rw [Carries, fieldWidth_coreFields, hbits]
  unfold coreFields at hc
  obtain ⟨hext, hc⟩ := hc.field_eq (by decide)
  obtain ⟨hII, hc⟩ := hc.field_eq (Bool.toNat_lt _)
  obtain ⟨hregional, hc⟩ := hc.field_eq (by decide)
  obtain ⟨hcount, hc⟩ := hc.field_eq h.msgCount
  obtain ⟨hid, hc⟩ := hc.field_eq h.id
  obtain ⟨hsec, hc⟩ := hc.field_eq h.secMarkMs
  obtain ⟨hlat, hc⟩ := hc.field_eq (u32_sub_lt h.latitude (by decide))
  obtain ⟨hlon, hc⟩ := hc.field_eq
    (u32_sub_lt ⟨h.longitude.1, by have := h.longitude.2; omega⟩ (by decide))
  obtain ⟨hele, hc⟩ := hc.field_eq (u32_sub_lt h.elevation (by decide))
  obtain ⟨hmajor, hc⟩ := hc.field_eq h.semiMajorAxisAccuracy
  obtain ⟨hminor, hc⟩ := hc.field_eq h.semiMinorAxisAccuracy
  obtain ⟨horient, hc⟩ := hc.field_eq h.semiMajorAxisOrientation
  obtain ⟨htrans, hc⟩ := hc.field_eq h.transmissionState
  obtain ⟨hspeed, hc⟩ := hc.field_eq h.speed
  obtain ⟨hheading, hc⟩ := hc.field_eq h.headingDegrees
  obtain ⟨hswa, hc⟩ := hc.field_eq (u32_sub_lt h.steeringWheelAngle (by decide))
  obtain ⟨haccLon, hc⟩ := hc.field_eq (u32_sub_lt h.accelLon (by decide))
  obtain ⟨haccLat, hc⟩ := hc.field_eq (u32_sub_lt h.accelLat (by decide))
  obtain ⟨haccVert, hc⟩ := hc.field_eq (u32_sub_lt h.accelVert (by decide))
  obtain ⟨haccYaw, hc⟩ := hc.field_eq (u32_sub_lt h.accelYaw (by decide))
  obtain ⟨hbrakes, hc⟩ := hc.field_eq (shiftRight_lt (a := 1) (b := 15) h.brakes.1)
  obtain ⟨hwidth, hc⟩ := hc.field_eq h.vehicleWidthCm
  obtain ⟨hlength, -⟩ := hc.field_eq h.vehicleLengthCm
  simp only [Nat.add_assoc, Nat.reduceAdd] at hII hregional hcount hid hsec hlat hlon hele hmajor
  simp only [Nat.add_assoc, Nat.reduceAdd] at hminor horient htrans hspeed hheading hswa haccLon
  simp only [Nat.add_assoc, Nat.reduceAdd] at haccLat haccVert haccYaw hbrakes hwidth hlength
  have hpadding := field_with_padding h.brakes.2 hbrakes hwidth
  refine ⟨?_, ?_, ?_, ?_⟩
  · rw [decodeCore_eq m p hlen, hcount, hid, hsec, hlat, hlon, hele, hmajor, hminor, horient,
      htrans, hspeed, hheading, hswa, haccLon, haccLat, haccVert, haccYaw, hpadding, hwidth,
      hlength]
    rw [withOffset_u32 (by have := h.latitude.1; omega) (by have := h.latitude.2; omega),
      withOffset_u32 (by have := h.longitude.1; omega) h.longitude.2,
      withOffset_u32 (by have := h.elevation.1; omega) (by have := h.elevation.2; omega),
      withOffset_u32 (by have := h.steeringWheelAngle.1; omega)
        (by have := h.steeringWheelAngle.2; omega),
      withOffset_u32 (by have := h.accelLon.1; omega) (by have := h.accelLon.2; omega),
      withOffset_u32 (by have := h.accelLat.1; omega) (by have := h.accelLat.2; omega),
      withOffset_u32 (by have := h.accelVert.1; omega) (by have := h.accelVert.2; omega),
      withOffset_u32 (by have := h.accelYaw.1; omega) (by have := h.accelYaw.2; omega)]
    rfl
  · have hflag : word m p &&& 0x80000000 ≠ 0 ↔ m.field (8 * p) 1 = 1 :=
      word_flag (s := 31) rfl (by omega) (by omega)
    rw [isExtended, hflag, hext]
    decide
  · have hflag : word m p &&& 0x40000000 ≠ 0 ↔ m.field (8 * p + 1) 1 = 1 :=
      word_flag (s := 30) rfl (by omega) (by omega)
    rw [announcesPartII, hflag, hII]
    cases v.hasPartII <;> decide
  · have hflag : word m p &&& 0x20000000 ≠ 0 ↔ m.field (8 * p + 2) 1 = 1 :=
      word_flag (s := 29) rfl (by omega) (by omega)
    rw [announcesRegional, hflag, hregional]
    decide

/-- The words of the fast path append what one `asn_ncat_bits` call for each field appends, and
leave the last three of 37 bytes' bits clear. -/
theorem encodeCore_eq_ncatAll (h : v.core.InWidth) {bp : Abuf} (h8 : bp.tailBitsLeft = 8)
    (hroom : bp.tail + 37 ≤ bp.end_) :
    Appended bp (encodeCore bp v) (fieldBits (coreFields v)) ∧
      Appended bp (ncatAll bp (coreFields v)) (fieldBits (coreFields v)) ∧
      Ready (encodeCore bp v) ∧ (encodeCore bp v).tailPos = 8 * (bp.tail + 36) + 5 := by
  obtain ⟨happ, hrdy⟩ := encodeCore_spec v h8 hroom
  have htp : bp.tailPos = 8 * bp.tail := by
    rw [tailPos, h8]
    omega
  have hpos := happ.tailPos
  rw [length_coreBits, htp] at hpos
  rw [coreBits_eq h] at happ
  have hwidths : ∀ f ∈ coreFields v, 0 < f.width := by
    simp [coreFields]
  have hncat := (ncatAll_spec (coreFields v) (fillable_of_empty h8) hwidths
    (by rw [fieldWidth_coreFields, htp]; omega)).1
  exact ⟨happ, hncat, hrdy, by omega⟩

/-- The core as the fast path writes and reads it: the bit string of its fields, the extension
bit and the regional bit clear; and every field read back from that string, the padding bit of
the brake status aside, which takes the top bit of the vehicle width. -/
theorem core_fast_path (v : BsmValue) (h : v.core.InWidth) :
    (∀ bp : Abuf, bp.tailBitsLeft = 8 → bp.tail + 37 ≤ bp.end_ → bp.startPos ≤ bp.tailPos →
      (encodeCore bp v).bits = (ncatAll bp (coreFields v)).bits ∧
        (encodeCore bp v).bits = bp.bits ++ fieldBits (coreFields v) ∧
        (encodeCore bp v).tail = bp.tail + 36 ∧ (encodeCore bp v).tailBitsLeft = 3 ∧
        (encodeCore bp v).mem.byte (bp.tail + 36) % 2 ^ 3 = 0) ∧
    ∀ (m : Mem) (p len : Nat), 37 ≤ len → m.bits (8 * p) 293 = fieldBits (coreFields v) →
      decodeCore m p len =
          { v.core with brakes := v.core.brakes ||| v.core.vehicleWidthCm >>> 9 } ∧
        ¬ isExtended m p ∧ (announcesPartII m p ↔ v.hasPartII = true) ∧
        ¬ announcesRegional m p := by
  refine ⟨?_, fun m p len hlen hbits => decodeCore_of_coreFields h hlen hbits⟩
  intro bp h8 hroom hord
  obtain ⟨henc, hncat, hrdy, hpos⟩ := encodeCore_eq_ncatAll h h8 hroom
  have hleft : (encodeCore bp v).tailBitsLeft = 3 := rfl
  have htail : (encodeCore bp v).tail = bp.tail + 36 := by
    rw [tailPos, hleft] at hpos
    omega
  have hclean := hrdy.clean (by rw [hleft]; decide)
  rw [hleft, htail] at hclean
  exact ⟨(henc.bits hord).trans (hncat.bits hord).symm, henc.bits hord, htail, hleft, hclean⟩

/-- A wide vehicle: 512 cm. -/
def wideVehicle : BsmValue :=
  { BsmValue.zero with core := { BsmValue.zero.core with vehicleWidthCm := 512 } }

theorem inWidth_wideVehicle : wideVehicle.core.InWidth := by
  constructor <;> decide

/-- An abuf with room for a core at address 0. -/
def coreRoom : Abuf where
  mem := fun _ => 0
  head := 0
  size := 40
  headHeadspaceBits := 0
  data := 0
  tail := 0
  tailBitsLeft := 8
  end_ := 40
  written := []

theorem bits_wideVehicle :
    (encodeCore coreRoom wideVehicle).mem.bits (8 * 0) 293 =
      fieldBits (coreFields wideVehicle) := by
  have hroom : coreRoom.tail + 37 ≤ coreRoom.end_ := by decide
  have h := (encodeCore_eq_ncatAll inWidth_wideVehicle rfl hroom).1.new
  rwa [length_fieldBits, fieldWidth_coreFields] at h

theorem core_fast_path_wide :
    (encodeCore coreRoom wideVehicle).bits = (ncatAll coreRoom (coreFields wideVehicle)).bits ∧
      (decodeCore (encodeCore coreRoom wideVehicle).mem 0 37).vehicleWidthCm = 512 := by
  have hpath := core_fast_path wideVehicle inWidth_wideVehicle
  exact ⟨(hpath.1 coreRoom rfl (by decide) (by decide)).1,
    congrArg Core.vehicleWidthCm (hpath.2 _ 0 37 (by decide) bits_wideVehicle).1⟩

/-- The brake status of a vehicle of 512 cm comes back with its padding bit set, and a regional
flag is not written. -/
theorem core_fast_path_padding :
    decodeCore (encodeCore coreRoom wideVehicle).mem 0 37 ≠ wideVehicle.core ∧
      coreBits { wideVehicle with hasRegionalExtensions := true } = coreBits wideVehicle := by
  refine ⟨?_, rfl⟩
  rw [(decodeCore_of_coreFields inWidth_wideVehicle (by decide) bits_wideVehicle).1]
  decide

end SatComm.J2735
