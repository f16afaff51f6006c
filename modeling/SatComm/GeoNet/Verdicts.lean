import SatComm.GeoNet.Headers

/-!
# Two tests of one area

`ReceiveGBCGAC` and `ForwardAlgorithmSelect` test in the same call whether the router is inside the
destination area of a packet. The first converts the fields of the area to host order, the second
uses them as they are loaded, and where the first found the router inside, it is given a copy of the
packet that has been released. `CartesianTransform` is floating point: any function of its arguments
takes its place, and any function that is exact where the result fits takes the place of an `int`
operation.
-/

namespace SatComm.GeoNet

/-! ## The code -/

/-- The result of `CartesianTransform` for the latitude and longitude of a point and of a centre,
and an angle. -/
abbrev Transform := Int → Int → Int → Int → Int → Int × Int

/-- `GeoRelativePosition` for a point in the coordinates of the area. -/
def GeoArea.relative (int : Int → Int) (area : GeoArea) (x y : Int) : Int :=
  Id.run (geoRelativePosition (fun v => pure (int v)) x y area.distA area.distB area.areaType)

/-- `CartesianTransform` and `GeoRelativePosition` for a point on earth. -/
def GeoArea.position (int : Int → Int) (transform : Transform) (area : GeoArea)
    (latitude longitude : Int) : Int :=
  let (x, y) := transform latitude longitude area.gpLatitude area.gpLongitude area.angle
  area.relative int x y

/-- The area as `ReceiveGBCGAC` reads it. -/
def receivedArea (buffer : List UInt8) : GeoArea where
  gpLatitude := (ntohl (Buffer.gpLatitude buffer)).toInt
  gpLongitude := (ntohl (Buffer.gpLongitude buffer)).toInt
  distA := (ntohs (Buffer.distA buffer)).toNat
  distB := (ntohs (Buffer.distB buffer)).toNat
  angle := (ntohs (Buffer.angle buffer)).toNat
  areaType := Buffer.areaType buffer

/-- The area as `ForwardAlgorithmSelect` reads it. -/
def forwardedArea (buffer : List UInt8) : GeoArea where
  gpLatitude := (Buffer.gpLatitude buffer).toInt
  gpLongitude := (Buffer.gpLongitude buffer).toInt
  distA := (Buffer.distA buffer).toNat
  distB := (Buffer.distB buffer).toNat
  angle := (Buffer.angle buffer).toNat
  areaType := Buffer.areaType buffer

/-- What `ReceiveGBCGAC` forwards: the packet, or its copy, whose memory holds `released` then. -/
def forwardedPacket (f : Int) (buffer released : List UInt8) : List UInt8 :=
  if 0 ≤ f then released else buffer

/-! ## Agreement -/

/-- An operation that fits is exact. -/
def Exact (int : Int → Int) : Prop := ∀ v, -2 ^ 31 ≤ v → v < 2 ^ 31 → int v = v

/-- The two functions come to the same verdict on every position of the router. -/
def VerdictsAgree (buffer released : List UInt8) : Prop :=
  ∀ int, Exact int → ∀ (transform : Transform) (latitude longitude : Int),
    let f := (receivedArea buffer).position int transform latitude longitude
    0 ≤ f ↔
      0 ≤ (forwardedArea (forwardedPacket f buffer released)).position int transform latitude longitude

/-- A rectangle or an ellipse of two distances zero. -/
def GeoArea.Everywhere (area : GeoArea) : Prop :=
  area.areaType ≠ .circle ∧ area.distA = 0 ∧ area.distB = 0

/-- The fields of `area'` are those of an area that is everywhere, of the same area, or of a circle
around the same centre whose radius is greater and has a square that fits. -/
def GeoArea.Wider (area' area : GeoArea) : Prop :=
  area'.Everywhere ∨
    ((area.gpLatitude, area.gpLongitude, area.angle, area.areaType) =
        (area'.gpLatitude, area'.gpLongitude, area'.angle, area'.areaType) ∧
      if area.areaType = .circle then
        area.distA = area'.distA ∨ (area.distA < area'.distA ∧ area'.distA ≤ 46340)
      else area.distA = area'.distA ∧ area.distB = area'.distB)

/-! ## Points of an area -/

section

variable {int : Int → Int} {area : GeoArea} {x y : Int}

theorem relative_origin (int : Int → Int) (area : GeoArea) : area.relative int 0 0 = 1 := rfl

theorem relative_circle (h : ¬ (x = 0 ∧ y = 0)) (ht : area.areaType = .circle) :
    0 ≤ area.relative int x y ↔
      int (int (x * x) + int (y * y)) ≤ int (area.distA * area.distA) := by
  rw [GeoArea.relative, geoRelativePosition, if_neg h, ht]
  simp only [pure_bind, Id.run_pure]
  split_ifs <;> omega

theorem relative_rect (h : ¬ (x = 0 ∧ y = 0)) (ht : area.areaType = .rect) :
    0 ≤ area.relative int x y ↔
      0 ≤ int (int (int (area.distA * area.distA) * int (area.distB * area.distB)) -
          int (int (area.distB * area.distB) * int (x * x))) ∧
        0 ≤ int (int (int (area.distA * area.distA) * int (area.distB * area.distB)) -
          int (int (area.distA * area.distA) * int (y * y))) := by
  rw [GeoArea.relative, geoRelativePosition, if_neg h, ht]
  simp only [pure_bind, Id.run_pure]
  exact le_min_iff

theorem relative_elip (h : ¬ (x = 0 ∧ y = 0)) (ht : area.areaType = .elip) :
    0 ≤ area.relative int x y ↔
      int (int (int (area.distB * area.distB) * int (x * x)) +
          int (int (area.distA * area.distA) * int (y * y))) ≤
        int (int (area.distA * area.distA) * int (area.distB * area.distB)) := by
  rw [GeoArea.relative, geoRelativePosition, if_neg h, ht]
  simp only [pure_bind, Id.run_pure]
  split_ifs <;> omega

/-- The axes of a rectangle or an ellipse can be exchanged. -/
def GeoArea.swap (area : GeoArea) : GeoArea :=
  { area with distA := area.distB, distB := area.distA }

theorem relative_swap (ht : area.areaType ≠ .circle) :
    0 ≤ area.relative int x y ↔ 0 ≤ area.swap.relative int y x := by
  by_cases h : x = 0 ∧ y = 0
  · rw [h.1, h.2, relative_origin, relative_origin]
  · have hswap : ¬ (y = 0 ∧ x = 0) := fun hyx => h hyx.symm
    cases ht' : area.areaType with
    | circle => exact absurd ht' ht
    | rect =>
      have hrect : area.swap.areaType = .rect := ht'
      rw [relative_rect h ht', relative_rect hswap hrect, and_comm]
      simp only [GeoArea.swap, mul_comm (int (area.distA * area.distA))
        (int (area.distB * area.distB))]
    | elip =>
      have helip : area.swap.areaType = .elip := ht'
      rw [relative_elip h ht', relative_elip hswap helip, add_comm]
      simp only [GeoArea.swap, mul_comm (int (area.distA * area.distA))
        (int (area.distB * area.distB))]

/-- With exact operations an area that is no line reaches as far as its first distance. -/
theorem reach_x (hthick : area.areaType = .circle ∨ 0 < area.distB) {n : Nat} (hn : 0 < n) :
    0 ≤ area.relative id n 0 ↔ n ≤ area.distA := by
  have hne : ¬ ((n : Int) = 0 ∧ (0 : Int) = 0) := by omega
  have hsq : (n : Int) * n ≤ area.distA * area.distA ↔ n ≤ area.distA := by
    rw [← Nat.cast_mul, ← Nat.cast_mul, Nat.cast_le, Nat.mul_self_le_mul_self_iff]
  cases ht : area.areaType with
  | circle =>
    rw [relative_circle hne ht, ← hsq]
    simp
  | rect =>
    have hb : 0 < area.distB := hthick.resolve_left (by simp [ht])
    have hpos : (0 : Int) < area.distB * area.distB := by positivity
    rw [relative_rect hne ht, ← hsq]
    simp only [id, mul_zero, sub_zero, sub_nonneg]
    rw [mul_comm, mul_le_mul_iff_left₀ hpos]
    exact and_iff_left (by positivity)
  | elip =>
    have hb : 0 < area.distB := hthick.resolve_left (by simp [ht])
    have hpos : (0 : Int) < area.distB * area.distB := by positivity
    rw [relative_elip hne ht, ← hsq]
    simp only [id, mul_zero, add_zero]
    rw [mul_comm, mul_le_mul_iff_left₀ hpos]

/-- A point that is no point of the area, if there is any. -/
theorem relative_outside (hthere : ¬ area.Everywhere) :
    ¬ 0 ≤ area.relative id (area.distA + 1) (area.distB + 1) := by
  have hne : ¬ ((area.distA + 1 : Int) = 0 ∧ (area.distB + 1 : Int) = 0) := by omega
  have h : area.areaType = .circle ∨ area.distA ≠ 0 ∨ area.distB ≠ 0 := by
    unfold GeoArea.Everywhere at hthere
    tauto
  cases ht : area.areaType with
  | circle =>
    rw [relative_circle hne ht]
    simp only [id]
    nlinarith
  | rect =>
    have hdx : (area.distA * area.distA * (area.distB * area.distB) -
        area.distB * area.distB * ((area.distA + 1) * (area.distA + 1)) : Int) =
        -(area.distB * area.distB * (2 * area.distA + 1)) := by ring
    have hdy : (area.distA * area.distA * (area.distB * area.distB) -
        area.distA * area.distA * ((area.distB + 1) * (area.distB + 1)) : Int) =
        -(area.distA * area.distA * (2 * area.distB + 1)) := by ring
    rw [relative_rect hne ht]
    simp only [id, hdx, hdy, Int.neg_nonneg, not_and_or, not_le]
    rcases h.resolve_left (by simp [ht]) with ha | hb
    · exact .inr (by positivity)
    · exact .inl (by positivity)
  | elip =>
    have hsum : (area.distB * area.distB * ((area.distA + 1) * (area.distA + 1)) +
        area.distA * area.distA * ((area.distB + 1) * (area.distB + 1)) : Int) =
        area.distA * area.distA * (area.distB * area.distB) +
          (area.distA * area.distA * (area.distB * area.distB) +
            area.distB * area.distB * (2 * area.distA + 1) +
            area.distA * area.distA * (2 * area.distB + 1)) := by ring
    rw [relative_elip hne ht]
    simp only [id, hsum, not_le, lt_add_iff_pos_right]
    rcases h.resolve_left (by simp [ht]) with ha | hb
    · positivity
    · positivity

/-- The points depend on the distances that the type of the area uses. -/
theorem relative_congr {area' : GeoArea} (htype : area.areaType = area'.areaType)
    (ha : area.distA = area'.distA) (hb : area.areaType ≠ .circle → area.distB = area'.distB) :
    0 ≤ area.relative int x y ↔ 0 ≤ area'.relative int x y := by
  by_cases ht : area.areaType = .circle
  · by_cases h : x = 0 ∧ y = 0
    · rw [h.1, h.2, relative_origin, relative_origin]
    · rw [relative_circle h ht, relative_circle h (htype ▸ ht), ha]
  · rw [GeoArea.relative, GeoArea.relative, htype, ha, hb ht]

/-- A rectangle or an ellipse of two distances zero is everywhere. -/
theorem relative_everywhere (hint : Exact int) (h : area.Everywhere) :
    0 ≤ area.relative int x y := by
  obtain ⟨ht, ha, hb⟩ := h
  have hzero : int 0 = 0 := hint 0 (by decide) (by decide)
  by_cases h : x = 0 ∧ y = 0
  · rw [h.1, h.2, relative_origin]
    exact Int.one_nonneg
  · cases ht' : area.areaType with
    | circle => exact absurd ht' ht
    | rect =>
      rw [relative_rect h ht', ha, hb]
      simp [hzero]
    | elip =>
      rw [relative_elip h ht', ha, hb]
      simp [hzero]

end

/-! ## An area inside another -/

/-- Every point of `area` is one of `area'`, for every position of the router. -/
def Contains (area' area : GeoArea) : Prop :=
  ∀ int, Exact int → ∀ (transform : Transform) (latitude longitude : Int),
    0 ≤ area.position int transform latitude longitude →
      0 ≤ area'.position int transform latitude longitude

/-- In coordinates that the two share. -/
def ContainsPoints (area' area : GeoArea) : Prop :=
  ∀ int, Exact int → ∀ x y, 0 ≤ area.relative int x y → 0 ≤ area'.relative int x y

/-- The distances are those of the 16-bit fields. -/
def GeoArea.Loaded (area : GeoArea) : Prop := area.distA < 2 ^ 16 ∧ area.distB < 2 ^ 16

variable {area area' : GeoArea}

theorem Contains.points (h : Contains area' area) : ContainsPoints area' area :=
  fun int hint x y => h int hint (fun _ _ _ _ _ => (x, y)) 0 0

/-- Unless the outer area is everywhere, the two have one centre and angle. -/
theorem Contains.frame_eq (h : Contains area' area) (hthere : ¬ area'.Everywhere) :
    (area.gpLatitude, area.gpLongitude, area.angle) =
      (area'.gpLatitude, area'.gpLongitude, area'.angle) := by
  by_contra hne
  -- the transformation puts the router into the centre of the one area and outside of the other
  have hpoint := h id (fun _ _ _ => rfl)
    (fun _ _ latitude longitude angle =>
      if (latitude, longitude, angle) = (area'.gpLatitude, area'.gpLongitude, (area'.angle : Int))
      then (area'.distA + 1, area'.distB + 1)
      else (0, 0)) 0 0
  have hne' : (area.gpLatitude, area.gpLongitude, (area.angle : Int)) ≠
      (area'.gpLatitude, area'.gpLongitude, (area'.angle : Int)) := by
    intro heq
    simp only [Prod.mk.injEq, Nat.cast_inj] at heq hne
    exact hne heq
  simp only [GeoArea.position, if_true, if_neg hne', relative_origin] at hpoint
  exact relative_outside hthere (hpoint Int.one_nonneg)

/-- The axes of both areas exchanged. -/
theorem ContainsPoints.swap (h : ContainsPoints area' area) (ht : area.areaType ≠ .circle)
    (ht' : area'.areaType ≠ .circle) : ContainsPoints area'.swap area.swap := by
  intro int hint x y
  rw [← relative_swap ht, ← relative_swap ht']
  exact h int hint y x

/-! ## Operations that overflow -/

theorem square_lt {d : Nat} (h : d < 2 ^ 16) : (0 : Int) ≤ d * d ∧ (d * d : Int) < 2 ^ 32 := by
  have h0 : (0 : Int) ≤ d := by omega
  have h1 : (d : Int) < 2 ^ 16 := by omega
  constructor
  · positivity
  · nlinarith

theorem one_le_square {d : Nat} (h : 0 < d) : (1 : Int) ≤ d * d := by
  have : (1 : Int) ≤ d := by omega
  nlinarith

theorem product_lt {a b : Nat} (ha : a < 2 ^ 16) (hb : b < 2 ^ 16) :
    (0 : Int) ≤ a * a * (b * b) ∧ (a * a * (b * b) : Int) < 2 ^ 64 := by
  obtain ⟨ha0, ha1⟩ := square_lt ha
  obtain ⟨hb0, hb1⟩ := square_lt hb
  constructor
  · positivity
  · nlinarith

/-- Exact on the products of an area, and `2 ^ 100` on the square of the coordinate `2 ^ 33`. -/
structure Bent (int : Int → Int) : Prop where
  small : ∀ v, 0 ≤ v → v < 2 ^ 64 → int v = v
  coordinate : int (2 ^ 33 * 2 ^ 33) = 2 ^ 100

theorem coordinate_ne : ¬ ((2 ^ 33 : Int) = 0 ∧ (0 : Int) = 0) := by norm_num

section bent

variable {int : Int → Int} (hint : Bent int)

include hint

theorem Bent.zero : int 0 = 0 := hint.small 0 le_rfl (by norm_num)

/-- The point `2 ^ 33` of the first axis. -/
theorem Bent.circle (h : area.Loaded) (ht : area.areaType = .circle) :
    0 ≤ area.relative int (2 ^ 33) 0 ↔ int (2 ^ 100) ≤ area.distA * area.distA := by
  obtain ⟨ha, hlt⟩ := square_lt h.1
  rw [relative_circle coordinate_ne ht, hint.coordinate, mul_zero, hint.zero, add_zero,
    hint.small _ ha (by omega)]

theorem Bent.rect (h : area.Loaded) (ht : area.areaType = .rect) :
    0 ≤ area.relative int (2 ^ 33) 0 ↔
      0 ≤ int (area.distA * area.distA * (area.distB * area.distB) -
        int (area.distB * area.distB * 2 ^ 100)) := by
  obtain ⟨ha0, ha1⟩ := square_lt h.1
  obtain ⟨hb0, hb1⟩ := square_lt h.2
  obtain ⟨hp0, hp1⟩ := product_lt h.1 h.2
  rw [relative_rect coordinate_ne ht, hint.coordinate, mul_zero, hint.zero,
    hint.small _ ha0 (by omega), hint.small _ hb0 (by omega), hint.small _ hp0 hp1, mul_zero,
    hint.zero, sub_zero, hint.small _ hp0 hp1]
  exact and_iff_left hp0

theorem Bent.elip (h : area.Loaded) (ht : area.areaType = .elip) :
    0 ≤ area.relative int (2 ^ 33) 0 ↔
      int (int (area.distB * area.distB * 2 ^ 100)) ≤
        area.distA * area.distA * (area.distB * area.distB) := by
  obtain ⟨ha0, ha1⟩ := square_lt h.1
  obtain ⟨hb0, hb1⟩ := square_lt h.2
  obtain ⟨hp0, hp1⟩ := product_lt h.1 h.2
  rw [relative_elip coordinate_ne ht, hint.coordinate, mul_zero, hint.zero,
    hint.small _ ha0 (by omega), hint.small _ hb0 (by omega), hint.small _ hp0 hp1, mul_zero,
    hint.zero, add_zero]

/-- Where the product with the coordinate is zero, the point is inside. -/
theorem Bent.inside (h : area.Loaded) (ht : area.areaType ≠ .circle)
    (hprod : int (area.distB * area.distB * 2 ^ 100) = 0) : 0 ≤ area.relative int (2 ^ 33) 0 := by
  obtain ⟨hp0, hp1⟩ := product_lt h.1 h.2
  cases ht' : area.areaType with
  | circle => exact absurd ht' ht
  | rect =>
    rw [hint.rect h ht', hprod, sub_zero, hint.small _ hp0 hp1]
    exact hp0
  | elip =>
    rw [hint.elip h ht', hprod, hint.zero]
    exact hp0

theorem Bent.flat (h : area.Loaded) (ht : area.areaType ≠ .circle) (hb : area.distB = 0) :
    0 ≤ area.relative int (2 ^ 33) 0 := by
  apply hint.inside h ht
  rw [hb]
  simpa using hint.zero

end bent

/-- The products with the coordinate give `far`, and what is done with that gives `low` or
`high`. -/
def steer (far low high v : Int) : Int :=
  if v = 2 ^ 66 then 2 ^ 100
  else if 2 ^ 250 ≤ v then high
  else if v ≤ -2 ^ 250 then low
  else if 2 ^ 99 ≤ v then far
  else v

theorem exact_steer (far low high : Int) : Exact (steer far low high) := by
  intro v hlo hhi
  unfold steer
  rw [if_neg (by omega), if_neg (by omega), if_neg (by omega), if_neg (by omega)]

section steer

variable {far low high : Int}

theorem bent_steer : Bent (steer far low high) where
  small v h hlt := by
    unfold steer
    rw [if_neg (by omega), if_neg (by omega), if_neg (by omega), if_neg (by omega)]
  coordinate := by
    unfold steer
    rw [if_pos (by norm_num)]

theorem steer_product {d : Nat} (hd : 0 < d) (hlt : d < 2 ^ 16) :
    steer far low high ((d * d : Int) * 2 ^ 100) = far := by
  have hpos := one_le_square hd
  have hle := (square_lt hlt).2
  unfold steer
  rw [if_neg (by omega), if_neg (by omega), if_neg (by omega), if_pos (by omega)]

theorem steer_square : steer far low high (2 ^ 100) = far := by
  simpa using steer_product (d := 1) one_pos (by norm_num)

theorem steer_high {v : Int} (h : 2 ^ 250 ≤ v) : steer far low high v = high := by
  unfold steer
  rw [if_neg (by omega), if_pos h]

theorem steer_low {v : Int} (h : v ≤ -2 ^ 250) : steer far low high v = low := by
  unfold steer
  rw [if_neg (by omega), if_neg (by omega), if_pos h]

theorem steer_circle (h : area.Loaded) (ht : area.areaType = .circle) :
    0 ≤ area.relative (steer far low high) (2 ^ 33) 0 ↔ far ≤ area.distA * area.distA := by
  rw [bent_steer.circle h ht, steer_square]

theorem steer_rect (h : area.Loaded) (ht : area.areaType = .rect) (hb : 0 < area.distB) :
    0 ≤ area.relative (steer far low high) (2 ^ 33) 0 ↔
      0 ≤ steer far low high (area.distA * area.distA * (area.distB * area.distB) - far) := by
  rw [bent_steer.rect h ht, steer_product hb h.2]

theorem steer_elip (h : area.Loaded) (ht : area.areaType = .elip) (hb : 0 < area.distB) :
    0 ≤ area.relative (steer far low high) (2 ^ 33) 0 ↔
      steer far low high far ≤ area.distA * area.distA * (area.distB * area.distB) := by
  rw [bent_steer.elip h ht, steer_product hb h.2]

end steer

section types

variable (h : ContainsPoints area' area) (hl : area.Loaded) (hl' : area'.Loaded)

include h hl hl'

/-- A circle contains no area of another type: the operations can be such that a point of that area
is none of the circle. -/
theorem ContainsPoints.areaType_circle (ht' : area'.areaType = .circle) :
    area.areaType = .circle := by
  obtain ⟨hp0, hp1⟩ := product_lt hl.1 hl.2
  obtain ⟨-, ha1'⟩ := square_lt hl'.1
  by_contra hne
  have hout : ¬ 0 ≤ area'.relative (steer (2 ^ 252) 0 0) (2 ^ 33) 0 := by
    rw [steer_circle hl' ht']
    omega
  refine hout (h _ (exact_steer _ _ _) _ _ ?_)
  rcases Nat.eq_zero_or_pos area.distB with hb0 | hb0
  · exact bent_steer.flat hl hne hb0
  · cases ht : area.areaType with
    | circle => exact absurd ht hne
    | rect =>
      rw [steer_rect hl ht hb0, steer_low (by omega)]
    | elip =>
      rw [steer_elip hl ht hb0, steer_high (by norm_num)]
      exact hp0

/-- As `ContainsPoints.areaType_circle`, of a rectangle. -/
theorem ContainsPoints.areaType_rect (ht' : area'.areaType = .rect) (hb' : 0 < area'.distB) :
    area.areaType = .rect := by
  obtain ⟨ha0, -⟩ := square_lt hl.1
  obtain ⟨hp0, hp1⟩ := product_lt hl.1 hl.2
  obtain ⟨hp0', hp1'⟩ := product_lt hl'.1 hl'.2
  by_contra hne
  have hout : ¬ 0 ≤ area'.relative (steer (-2 ^ 252) (-1) (-1)) (2 ^ 33) 0 := by
    rw [steer_rect hl' ht' hb', steer_high (by omega)]
    norm_num
  refine hout (h _ (exact_steer _ _ _) _ _ ?_)
  cases ht : area.areaType with
  | circle =>
    rw [steer_circle hl ht]
    omega
  | rect => exact absurd ht hne
  | elip =>
    rcases Nat.eq_zero_or_pos area.distB with hb0 | hb0
    · exact bent_steer.flat hl (by simp [ht]) hb0
    · rw [steer_elip hl ht hb0, steer_low (by norm_num)]
      omega

/-- As `ContainsPoints.areaType_circle`, of an ellipse. -/
theorem ContainsPoints.areaType_elip (ht' : area'.areaType = .elip) (hb' : 0 < area'.distB) :
    area.areaType = .elip := by
  obtain ⟨ha0, -⟩ := square_lt hl.1
  obtain ⟨hp0, hp1⟩ := product_lt hl.1 hl.2
  obtain ⟨hp0', hp1'⟩ := product_lt hl'.1 hl'.2
  by_contra hne
  have hout : ¬ 0 ≤ area'.relative (steer (-2 ^ 252) (2 ^ 80) 0) (2 ^ 33) 0 := by
    rw [steer_elip hl' ht' hb', steer_low (by norm_num)]
    omega
  refine hout (h _ (exact_steer _ _ _) _ _ ?_)
  cases ht : area.areaType with
  | circle =>
    rw [steer_circle hl ht]
    omega
  | rect =>
    rcases Nat.eq_zero_or_pos area.distB with hb0 | hb0
    · exact bent_steer.flat hl (by simp [ht]) hb0
    · rw [steer_rect hl ht hb0, steer_high (by omega)]
  | elip => exact absurd ht hne

theorem ContainsPoints.areaType_eq_of_pos
    (hb : area'.areaType = .circle ∨ 0 < area'.distB) : area.areaType = area'.areaType := by
  cases ht' : area'.areaType with
  | circle => exact h.areaType_circle hl hl' ht'
  | rect => exact h.areaType_rect hl hl' ht' (hb.resolve_left (by simp [ht']))
  | elip => exact h.areaType_elip hl hl' ht' (hb.resolve_left (by simp [ht']))

end types

/-- Areas of one type, whose axes can be exchanged. -/
theorem ContainsPoints.areaType_eq (h : ContainsPoints area' area) (hl : area.Loaded)
    (hl' : area'.Loaded) (hthere : ¬ area'.Everywhere) : area.areaType = area'.areaType := by
  by_cases ht' : area'.areaType = .circle
  · exact h.areaType_eq_of_pos hl hl' (.inl ht')
  · rcases Nat.eq_zero_or_pos area'.distB with hb | hb
    · have ha : 0 < area'.distA := by
        unfold GeoArea.Everywhere at hthere
        have : area'.distA ≠ 0 := fun ha => hthere ⟨ht', ha, hb⟩
        omega
      by_cases ht : area.areaType = .circle
      · -- a circle is symmetric in the two coordinates
        have hcircle : ∀ int x y, 0 ≤ area.relative int y x → 0 ≤ area.relative int x y := by
          intro int x y hyx
          by_cases h0 : x = 0 ∧ y = 0
          · rw [h0.1, h0.2, relative_origin]
            exact Int.one_nonneg
          · rw [relative_circle (fun hyx => h0 hyx.symm) ht] at hyx
            rw [relative_circle h0 ht, add_comm]
            exact hyx
        have hswap : ContainsPoints area'.swap area := by
          intro int hint x y hxy
          rw [← relative_swap ht']
          exact h int hint y x (hcircle int y x hxy)
        exact hswap.areaType_eq_of_pos hl ⟨hl'.2, hl'.1⟩ (.inr ha)
      · exact (h.swap ht ht').areaType_eq_of_pos ⟨hl.2, hl.1⟩ ⟨hl'.2, hl'.1⟩ (.inr ha)
    · exact h.areaType_eq_of_pos hl hl' (.inr hb)

/-- As `steer`, but the product `w` gives `2 ^ 80` and the others give zero. -/
def single (w v : Int) : Int :=
  if v = 2 ^ 66 then 2 ^ 100 else if v = w then 2 ^ 80 else if 2 ^ 99 ≤ v then 0 else v

section single

variable {w : Int} (hw : 2 ^ 99 ≤ w)

include hw

theorem exact_single : Exact (single w) := by
  intro v hlo hhi
  unfold single
  rw [if_neg (by omega), if_neg (by omega), if_neg (by omega)]

theorem bent_single : Bent (single w) where
  small v h hlt := by
    unfold single
    rw [if_neg (by omega), if_neg (by omega), if_neg (by omega)]
  coordinate := by
    unfold single
    rw [if_pos (by norm_num)]

theorem single_self : single w w = 2 ^ 80 := by
  unfold single
  rw [if_neg (by omega), if_pos rfl]

theorem single_of_lt {v : Int} (h : v < 2 ^ 66) : single w v = v := by
  unfold single
  rw [if_neg (by omega), if_neg (by omega), if_neg (by omega)]

theorem single_large : single w (2 ^ 80) = 2 ^ 80 := by
  unfold single
  rw [if_neg (by norm_num), if_neg (by omega), if_neg (by norm_num)]

theorem single_product {d : Nat} (hne : (d * d * 2 ^ 100 : Int) ≠ w) :
    single w (d * d * 2 ^ 100) = 0 := by
  rcases Nat.eq_zero_or_pos d with rfl | hd
  · simpa using (bent_single hw).zero
  · have := one_le_square hd
    unfold single
    rw [if_neg (by omega), if_neg hne, if_pos (by omega)]

end single

/-- Rectangles or ellipses of one type, where the outer one extends across the axis. -/
theorem ContainsPoints.distB_eq (h : ContainsPoints area' area) (hl : area.Loaded)
    (hl' : area'.Loaded) (ht : area.areaType ≠ .circle) (ht' : area'.areaType ≠ .circle)
    (hb : 0 < area'.distB) : area.distB = area'.distB := by
  by_contra hne
  obtain ⟨hp0', hp1'⟩ := product_lt hl'.1 hl'.2
  have hone := one_le_square hb
  have hw : (2 ^ 99 : Int) ≤ area'.distB * area'.distB * 2 ^ 100 := by omega
  have hneq : (area.distB * area.distB * 2 ^ 100 : Int) ≠ area'.distB * area'.distB * 2 ^ 100 := by
    intro heq
    rw [mul_left_inj' (by norm_num), ← Nat.cast_mul, ← Nat.cast_mul, Nat.cast_inj,
      Nat.mul_self_inj] at heq
    exact hne heq
  have hin := h _ (exact_single hw) (2 ^ 33) 0
    ((bent_single hw).inside hl ht (single_product hw hneq))
  cases hty : area'.areaType with
  | circle => exact ht' hty
  | rect =>
    rw [(bent_single hw).rect hl' hty, single_self hw, single_of_lt hw (by omega)] at hin
    omega
  | elip =>
    rw [(bent_single hw).elip hl' hty, single_self hw, single_large hw] at hin
    omega

/-- Rectangles or ellipses, where the outer one is a line. -/
theorem ContainsPoints.distB_eq_zero (h : ContainsPoints area' area) (ht : area.areaType ≠ .circle)
    (ht' : area'.areaType ≠ .circle) (ha : area.distA = area'.distA) (hpos : 0 < area'.distA)
    (hb : area'.distB = 0) : area.distB = 0 := by
  by_contra hne
  have hsq := one_le_square (Nat.pos_of_ne_zero hne)
  have hsq' := one_le_square hpos
  have h01 : ¬ ((0 : Int) = 0 ∧ (1 : Int) = 0) := by norm_num
  have hin : 0 ≤ area.relative id 0 1 := by
    cases hty : area.areaType with
    | circle => exact absurd hty ht
    | rect =>
      rw [relative_rect h01 hty, ha]
      simp only [id]
      constructor
      · nlinarith
      · nlinarith
    | elip =>
      rw [relative_elip h01 hty, ha]
      simp only [id]
      nlinarith
  have hout := h id (fun _ _ _ => rfl) 0 1 hin
  cases hty : area'.areaType with
  | circle => exact ht' hty
  | rect =>
    rw [relative_rect h01 hty, hb] at hout
    simp only [id] at hout
    omega
  | elip =>
    rw [relative_elip h01 hty, hb] at hout
    simp only [id] at hout
    omega

/-- Rectangles or ellipses. -/
theorem ContainsPoints.dist_eq (h : ContainsPoints area' area) (hl : area.Loaded)
    (hl' : area'.Loaded) (hthere : ¬ area'.Everywhere) (ht : area.areaType ≠ .circle)
    (ht' : area'.areaType ≠ .circle) : area.distA = area'.distA ∧ area.distB = area'.distB := by
  have hswap := h.swap ht ht'
  have hA : 0 < area'.distA → area.distA = area'.distA :=
    hswap.distB_eq ⟨hl.2, hl.1⟩ ⟨hl'.2, hl'.1⟩ ht ht'
  have hB : 0 < area'.distB → area.distB = area'.distB := h.distB_eq hl hl' ht ht'
  rcases Nat.eq_zero_or_pos area'.distA with ha | ha
  · rcases Nat.eq_zero_or_pos area'.distB with hb | hb
    · exact absurd ⟨ht', ha, hb⟩ hthere
    · have hzero : area.distA = 0 := hswap.distB_eq_zero ht ht' (hB hb) hb ha
      exact ⟨hzero.trans ha.symm, hB hb⟩
  · rcases Nat.eq_zero_or_pos area'.distB with hb | hb
    · exact ⟨hA ha, (h.distB_eq_zero ht ht' (hA ha) ha hb).trans hb.symm⟩
    · exact ⟨hA ha, hB hb⟩

/-! ## Circles -/

/-- The square `w` gives `-1`, and that of the coordinate gives zero. -/
def deflate (w v : Int) : Int := if v = 2 ^ 66 then 0 else if v = w then -1 else v

theorem ContainsPoints.radius (h : ContainsPoints area' area) (hl' : area'.Loaded)
    (ht : area.areaType = .circle) (ht' : area'.areaType = .circle) :
    area.distA = area'.distA ∨ (area.distA < area'.distA ∧ area'.distA ≤ 46340) := by
  have hle : area.distA ≤ area'.distA := by
    rcases Nat.eq_zero_or_pos area.distA with h0 | hpos
    · omega
    · rw [← reach_x (.inl ht') hpos]
      exact h id (fun _ _ _ => rfl) _ 0 ((reach_x (.inl ht) hpos).mpr le_rfl)
  by_cases heq : area.distA = area'.distA
  · exact .inl heq
  · refine .inr ⟨by omega, ?_⟩
    by_contra hlarge
    have hfits : (46341 * 46341 : Int) ≤ area'.distA * area'.distA := by
      have : (46341 : Int) ≤ area'.distA := by omega
      nlinarith
    have hlt := (square_lt hl'.1).2
    have hexact : Exact (deflate (area'.distA * area'.distA)) := by
      intro v hlo hhi
      unfold deflate
      rw [if_neg (by omega), if_neg (by omega)]
    have hx : deflate (area'.distA * area'.distA) (2 ^ 33 * 2 ^ 33) = 0 := by
      unfold deflate
      rw [if_pos (by norm_num)]
    have hzero : deflate (area'.distA * area'.distA) 0 = 0 := hexact 0 (by norm_num) (by norm_num)
    have hself : deflate (area'.distA * area'.distA) (area'.distA * area'.distA) = -1 := by
      unfold deflate
      rw [if_neg (by omega), if_pos rfl]
    have hother : deflate (area'.distA * area'.distA) (area.distA * area.distA) =
        area.distA * area.distA := by
      have hneq : (area.distA * area.distA : Int) ≠ area'.distA * area'.distA := by
        rw [← Nat.cast_mul, ← Nat.cast_mul, Ne, Nat.cast_inj, Nat.mul_self_inj]
        exact heq
      have hle' : (area.distA * area.distA : Int) ≤ area'.distA * area'.distA := by
        have : (area.distA : Int) ≤ area'.distA := by omega
        nlinarith
      unfold deflate
      rw [if_neg (by omega), if_neg hneq]
    have hpoint := h _ hexact (2 ^ 33) 0
    rw [relative_circle coordinate_ne ht, relative_circle coordinate_ne ht', hx, mul_zero, hzero,
      add_zero, hzero, hself, hother] at hpoint
    have hsq : (0 : Int) ≤ area.distA * area.distA := by positivity
    have := hpoint hsq
    omega

/-- A greater circle, where the squares of both radii fit. -/
theorem relative_of_smaller {int : Int → Int} (hint : Exact int) {x y : Int}
    (ht : area.areaType = .circle) (ht' : area'.areaType = .circle)
    (hle : area.distA ≤ area'.distA) (hfits : area'.distA ≤ 46340)
    (hin : 0 ≤ area.relative int x y) : 0 ≤ area'.relative int x y := by
  by_cases h0 : x = 0 ∧ y = 0
  · rw [h0.1, h0.2, relative_origin]
    exact Int.one_nonneg
  · have hsq : (area.distA * area.distA : Int) ≤ area'.distA * area'.distA := by
      have : (area.distA : Int) ≤ area'.distA := by omega
      nlinarith
    have hsq' : (area'.distA * area'.distA : Int) ≤ 46340 * 46340 := by
      have : (area'.distA : Int) ≤ 46340 := by omega
      nlinarith
    have hpos : (0 : Int) ≤ area.distA * area.distA := by positivity
    rw [relative_circle h0 ht, hint (area.distA * area.distA) (by omega) (by omega)] at hin
    rw [relative_circle h0 ht', hint (area'.distA * area'.distA) (by omega) (by omega)]
    exact hin.trans hsq

/-! ## The fields decide -/

theorem Contains.wider (h : Contains area' area) (hl : area.Loaded) (hl' : area'.Loaded) :
    area'.Wider area := by
  by_cases hthere : area'.Everywhere
  · exact .inl hthere
  · have hframe := h.frame_eq hthere
    have htype := h.points.areaType_eq hl hl' hthere
    simp only [Prod.mk.injEq] at hframe
    refine .inr ⟨by rw [hframe.1, hframe.2.1, hframe.2.2, htype], ?_⟩
    by_cases ht : area.areaType = .circle
    · rw [if_pos ht]
      exact h.points.radius hl' ht (htype ▸ ht)
    · rw [if_neg ht]
      exact h.points.dist_eq hl hl' hthere ht (htype ▸ ht)

theorem GeoArea.Wider.contains (h : area'.Wider area) : Contains area' area := by
  intro int hint transform latitude longitude hin
  rcases h with hthere | ⟨hframe, hdist⟩
  · exact relative_everywhere hint hthere
  · simp only [Prod.mk.injEq] at hframe
    obtain ⟨hlat, hlong, hangle, htype⟩ := hframe
    unfold GeoArea.position at hin ⊢
    rw [hlat, hlong, hangle] at hin
    by_cases ht : area.areaType = .circle
    · rw [if_pos ht] at hdist
      rcases hdist with heq | ⟨hlt, hfits⟩
      · exact (relative_congr htype heq fun hne => absurd ht hne).mp hin
      · exact relative_of_smaller hint ht (htype ▸ ht) hlt.le hfits hin
    · rw [if_neg ht] at hdist
      exact (relative_congr htype hdist.1 fun _ => hdist.2).mp hin

theorem contains_iff_wider (hl : area.Loaded) (hl' : area'.Loaded) :
    Contains area' area ↔ area'.Wider area :=
  ⟨fun h => h.wider hl hl', GeoArea.Wider.contains⟩

/-! ## The two tests -/

theorem loaded_receivedArea (buffer : List UInt8) : (receivedArea buffer).Loaded :=
  ⟨(ntohs (Buffer.distA buffer)).isLt, (ntohs (Buffer.distB buffer)).isLt⟩

theorem loaded_forwardedArea (buffer : List UInt8) : (forwardedArea buffer).Loaded :=
  ⟨(Buffer.distA buffer).isLt, (Buffer.distB buffer).isLt⟩

/-- An anycast packet for a circle of one metre around the router. -/
def nearbyCircle : List UInt8 :=
  [0x01, 0, 0, 2] ++ [0x10, 0x30, 0, 0, 0, 0, 2, 0] ++ List.replicate 28 0 ++
    List.replicate 8 0 ++ [0, 1] ++ [0, 1] ++ List.replicate 4 0

end SatComm.GeoNet
