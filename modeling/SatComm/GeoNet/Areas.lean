import Mathlib

/-!
# Geographical areas

`GeoRelativePosition` tells whether a point lies inside an area (positive), on its border (zero) or
outside (negative). It squares the coordinates and the distances and multiplies the squares, all in
`int`. The result of every operation goes through `int`: `checked` has no result where an operation
overflows, which is undefined in the source.
-/

namespace SatComm.GeoNet

/-- `GeoAreaType`. -/
inductive GeoAreaType
  | circle
  | rect
  | elip
deriving DecidableEq, Repr

/-! ## The code -/

/-- `GeoNetUtils::GeoRelativePosition`. -/
def geoRelativePosition {m : Type → Type} [Monad m] (int : Int → m Int) (x y a b : Int)
    (type : GeoAreaType) : m Int :=
  if x = 0 ∧ y = 0 then pure 1
  else do
    let x ← int (x * x)
    let y ← int (y * y)
    let a ← int (a * a)
    let b ← int (b * b)
    match type with
    | .circle =>
      let xy ← int (x + y)
      pure (if a = xy then 0 else if xy < a then 1 else -1)
    | .rect =>
      let ab ← int (a * b)
      let bx ← int (b * x)
      let ay ← int (a * y)
      let dx ← int (ab - bx)
      let dy ← int (ab - ay)
      pure (min dx dy)
    | .elip =>
      let ab ← int (a * b)
      let bx ← int (b * x)
      let ay ← int (a * y)
      let bxay ← int (bx + ay)
      pure (if ab = bxay then 0 else if bxay < ab then 1 else -1)

/-- An `int` operation whose result has to fit. -/
def checked (v : Int) : Option Int := if -2 ^ 31 ≤ v ∧ v < 2 ^ 31 then some v else none

/-! ## What the function is for -/

/-- The geometric function of an area, over the integers. -/
def geometric (x y a b : Int) : GeoAreaType → Int
  | .circle => a ^ 2 - x ^ 2 - y ^ 2
  | .rect => min (a ^ 2 - x ^ 2) (b ^ 2 - y ^ 2)
  | .elip => a ^ 2 * b ^ 2 - b ^ 2 * x ^ 2 - a ^ 2 * y ^ 2

/-- No operation overflows, and the result has the sign of the geometric function. -/
def Placed (x y a b : Int) (type : GeoAreaType) : Prop :=
  ∃ f, geoRelativePosition checked x y a b type = some f ∧
    f.sign = (geometric x y a b type).sign

/-- The squares fit, and so do the products and sums that the area needs. -/
def InBounds (x y a b : Int) (type : GeoAreaType) : Prop :=
  (x ^ 2 < 2 ^ 31 ∧ y ^ 2 < 2 ^ 31 ∧ a ^ 2 < 2 ^ 31 ∧ b ^ 2 < 2 ^ 31) ∧
    match type with
    | .circle => x ^ 2 + y ^ 2 < 2 ^ 31
    | .rect => a ^ 2 * b ^ 2 < 2 ^ 31 ∧ b ^ 2 * x ^ 2 < 2 ^ 31 ∧ a ^ 2 * y ^ 2 < 2 ^ 31
    | .elip => a ^ 2 * b ^ 2 < 2 ^ 31 ∧ b ^ 2 * x ^ 2 + a ^ 2 * y ^ 2 < 2 ^ 31

/-- A rectangle of width or height zero, which the products do not tell from a line without
ends. -/
def Flat (x y a b : Int) : Prop :=
  (a = 0 ∧ b = 0) ∨ (a = 0 ∧ x = 0 ∧ b < |y|) ∨ (b = 0 ∧ y = 0 ∧ a < |x|)

/-- At the centre the area must have an extent; elsewhere the operations must fit, and a rectangle
must not be too flat for the point. -/
def Placeable (x y a b : Int) (type : GeoAreaType) : Prop :=
  if x = 0 ∧ y = 0 then 0 < a ∧ (type = .circle ∨ 0 < b)
  else InBounds x y a b type ∧ ¬ (type = .rect ∧ Flat x y a b)

/-! ## The operations -/

/-- An operation whose result is not negative only has to stay below the bound. -/
theorem checked_bind {v f : Int} {k : Int → Option Int} (hv : 0 ≤ v) :
    (checked v >>= k) = some f ↔ v < 2 ^ 31 ∧ k v = some f := by
  by_cases h : v < 2 ^ 31
  · rw [checked, if_pos ⟨by omega, h⟩, and_iff_right h]
    rfl
  · have hout : ¬ (-2 ^ 31 ≤ v ∧ v < 2 ^ 31) := fun hin => h hin.2
    rw [checked, if_neg hout]
    exact iff_of_false (Option.some_ne_none f).symm fun hf => h hf.1

/-- A difference of two results fits. -/
theorem checked_sub {u v : Int} (hu : 0 ≤ u ∧ u < 2 ^ 31) (hv : 0 ≤ v ∧ v < 2 ^ 31) :
    checked (u - v) = some (u - v) := by
  rw [checked, if_pos (by omega)]

theorem sign_compare (u v : Int) :
    (if u = v then 0 else if v < u then 1 else -1 : Int).sign = (u - v).sign := by
  rcases lt_trichotomy u v with h | h | h
  · have hneg : u - v < 0 := by omega
    rw [if_neg (by omega), if_neg (by omega), Int.sign_eq_neg_one_of_neg hneg]
    rfl
  · rw [if_pos h, h, Int.sub_self]
  · have hpos : 0 < u - v := by omega
    rw [if_neg (by omega), if_pos h, Int.sign_eq_one_of_pos hpos]
    rfl

/-- Away from the centre, everything that is computed has to fit. -/
theorem geoRelativePosition_circle {x y a b f : Int} (h : ¬ (x = 0 ∧ y = 0)) :
    geoRelativePosition checked x y a b .circle = some f ↔
      InBounds x y a b .circle ∧
        f = if a ^ 2 = x ^ 2 + y ^ 2 then 0 else if x ^ 2 + y ^ 2 < a ^ 2 then 1 else -1 := by
  rw [geoRelativePosition, if_neg h, InBounds]
  simp only [← sq]
  rw [checked_bind (sq_nonneg x), checked_bind (sq_nonneg y), checked_bind (sq_nonneg a),
    checked_bind (sq_nonneg b), checked_bind (add_nonneg (sq_nonneg x) (sq_nonneg y))]
  simp only [pure, Option.some_inj, and_assoc, eq_comm]

theorem geoRelativePosition_rect {x y a b f : Int} (h : ¬ (x = 0 ∧ y = 0)) :
    geoRelativePosition checked x y a b .rect = some f ↔
      InBounds x y a b .rect ∧
        f = min (a ^ 2 * b ^ 2 - b ^ 2 * x ^ 2) (a ^ 2 * b ^ 2 - a ^ 2 * y ^ 2) := by
  have hab : 0 ≤ a ^ 2 * b ^ 2 := mul_nonneg (sq_nonneg a) (sq_nonneg b)
  have hbx : 0 ≤ b ^ 2 * x ^ 2 := mul_nonneg (sq_nonneg b) (sq_nonneg x)
  have hay : 0 ≤ a ^ 2 * y ^ 2 := mul_nonneg (sq_nonneg a) (sq_nonneg y)
  rw [geoRelativePosition, if_neg h, InBounds]
  simp only [← sq]
  rw [checked_bind (sq_nonneg x), checked_bind (sq_nonneg y), checked_bind (sq_nonneg a),
    checked_bind (sq_nonneg b), checked_bind hab, checked_bind hbx, checked_bind hay]
  simp only [and_assoc, and_congr_right_iff]
  intro _ _ _ _ hab' hbx' hay'
  rw [checked_sub ⟨hab, hab'⟩ ⟨hbx, hbx'⟩, checked_sub ⟨hab, hab'⟩ ⟨hay, hay'⟩]
  exact Option.some_inj.trans eq_comm

theorem geoRelativePosition_elip {x y a b f : Int} (h : ¬ (x = 0 ∧ y = 0)) :
    geoRelativePosition checked x y a b .elip = some f ↔
      InBounds x y a b .elip ∧
        f = if a ^ 2 * b ^ 2 = b ^ 2 * x ^ 2 + a ^ 2 * y ^ 2 then 0
          else if b ^ 2 * x ^ 2 + a ^ 2 * y ^ 2 < a ^ 2 * b ^ 2 then 1 else -1 := by
  have hab : 0 ≤ a ^ 2 * b ^ 2 := mul_nonneg (sq_nonneg a) (sq_nonneg b)
  have hbx : 0 ≤ b ^ 2 * x ^ 2 := mul_nonneg (sq_nonneg b) (sq_nonneg x)
  have hay : 0 ≤ a ^ 2 * y ^ 2 := mul_nonneg (sq_nonneg a) (sq_nonneg y)
  rw [geoRelativePosition, if_neg h, InBounds]
  simp only [← sq]
  rw [checked_bind (sq_nonneg x), checked_bind (sq_nonneg y), checked_bind (sq_nonneg a),
    checked_bind (sq_nonneg b), checked_bind hab, checked_bind hbx, checked_bind hay,
    checked_bind (add_nonneg hbx hay)]
  simp only [and_assoc, and_congr_right_iff]
  intro _ _ _ _ _
  constructor
  · rintro ⟨-, -, hsum, hf⟩
    exact ⟨hsum, (Option.some.inj hf).symm⟩
  · rintro ⟨hsum, rfl⟩
    exact ⟨by omega, by omega, hsum, rfl⟩

/-! ## The sign -/

theorem sign_le_one (v : Int) : v.sign ≤ 1 := by
  rcases Int.sign_trichotomy v with h | h | h <;> omega

theorem neg_one_le_sign (v : Int) : -1 ≤ v.sign := by
  rcases Int.sign_trichotomy v with h | h | h <;> omega

theorem sign_mono {u v : Int} (h : u ≤ v) : u.sign ≤ v.sign := by
  rcases lt_trichotomy u 0 with hu | rfl | hu
  · rw [Int.sign_eq_neg_one_of_neg hu]
    exact neg_one_le_sign v
  · exact Int.sign_nonneg_iff.mpr h
  · rw [Int.sign_eq_one_of_pos (lt_of_lt_of_le hu h)]
    exact sign_le_one u

theorem sign_min (u v : Int) : (min u v).sign = min u.sign v.sign := by
  rcases le_total u v with h | h
  · rw [min_eq_left h, min_eq_left (sign_mono h)]
  · rw [min_eq_right h, min_eq_right (sign_mono h)]

theorem sub_sq_neg_iff (y : Int) (b : Nat) : (b ^ 2 - y ^ 2 : Int) < 0 ↔ b < |y| := by
  rw [sub_neg, sq_lt_sq, Nat.abs_cast]

/-- With one side of length zero the product for the other side is zero, too. -/
theorem min_sign_zero (x v : Int) :
    min (-(x ^ 2)).sign 0 = min (-(x ^ 2)).sign v.sign ↔ ¬ (x = 0 ∧ v < 0) := by
  by_cases hx : x = 0
  · subst hx
    have hsign : 0 ≤ v.sign ↔ 0 ≤ v := Int.sign_nonneg_iff
    have hzero : (-(0 ^ 2) : Int).sign = 0 := rfl
    rw [hzero]
    omega
  · have hsq : 0 < x ^ 2 := by positivity
    have hneg : (-(x ^ 2)).sign = -1 := Int.sign_eq_neg_one_of_neg (by omega)
    have hle := neg_one_le_sign v
    rw [hneg]
    omega

/-- The products of the rectangle have the sign of its geometric function, unless it is too
flat. -/
theorem sign_rect {x y : Int} {a b : Nat} (h : ¬ (x = 0 ∧ y = 0)) :
    (min (a ^ 2 * b ^ 2 - b ^ 2 * x ^ 2) (a ^ 2 * b ^ 2 - a ^ 2 * y ^ 2) : Int).sign =
        (geometric x y a b .rect).sign ↔ ¬ Flat x y a b := by
  have hx : (a ^ 2 * b ^ 2 - b ^ 2 * x ^ 2 : Int) = b ^ 2 * (a ^ 2 - x ^ 2) := by ring
  have hy : (a ^ 2 * b ^ 2 - a ^ 2 * y ^ 2 : Int) = a ^ 2 * (b ^ 2 - y ^ 2) := by ring
  have hzero : (((0 : Nat) : Int) ^ 2).sign = 0 := rfl
  have hpos (n : Nat) (hn : 0 < n) : ((n : Int) ^ 2).sign = 1 :=
    Int.sign_eq_one_of_pos (by positivity)
  have hsub (v : Int) : ((0 : Nat) : Int) ^ 2 - v ^ 2 = -(v ^ 2) := by simp
  rw [hx, hy, geometric, sign_min, sign_min, Int.sign_mul, Int.sign_mul, Flat]
  rcases Nat.eq_zero_or_pos a with rfl | ha
  · rcases Nat.eq_zero_or_pos b with rfl | hb
    · -- one of the coordinates is not zero, so the function is negative
      have hside : x ^ 2 ≠ 0 ∨ y ^ 2 ≠ 0 := by
        rw [Ne, Ne, sq_eq_zero_iff, sq_eq_zero_iff]
        omega
      have hmin : min (-(x ^ 2)) (-(y ^ 2)) < 0 := by
        have := sq_nonneg x
        have := sq_nonneg y
        omega
      rw [hzero, zero_mul, zero_mul, hsub, hsub, ← sign_min, Int.sign_eq_neg_one_of_neg hmin]
      simp
    · rw [hzero, hpos b hb, one_mul, zero_mul, hsub, min_sign_zero, sub_sq_neg_iff]
      simp [hb.ne']
  · rcases Nat.eq_zero_or_pos b with rfl | hb
    · rw [hzero, hpos a ha, one_mul, zero_mul, hsub, min_comm 0,
        min_comm (Int.sign ((a : Int) ^ 2 - x ^ 2)), min_sign_zero, sub_sq_neg_iff]
      simp [ha.ne']
    · rw [hpos a ha, hpos b hb, one_mul, one_mul]
      simp [ha.ne', hb.ne']

/-- The sign is right, and nothing overflows, exactly for points and distances that `Placeable`
admits. -/
theorem placed_iff (x y : Int) (a b : Nat) (type : GeoAreaType) :
    Placed x y a b type ↔ Placeable x y a b type := by
  unfold Placed Placeable
  by_cases h : x = 0 ∧ y = 0
  · have hone : geoRelativePosition checked x y a b type = some 1 := by
      rw [geoRelativePosition, if_pos h]
      rfl
    have hsign (v : Int) : (1 : Int).sign = v.sign ↔ 0 < v := by
      rw [eq_comm]
      exact Int.sign_eq_one_iff_pos
    have hsq (n : Nat) : 0 < (n : Int) ^ 2 ↔ 0 < n := by
      rw [sq_pos_iff, Nat.pos_iff_ne_zero, Nat.cast_ne_zero]
    obtain ⟨rfl, rfl⟩ := h
    rw [if_pos ⟨rfl, rfl⟩, hone]
    simp only [Option.some_inj, exists_eq_left', hsign]
    cases type with
    | circle => simp [geometric, hsq]
    | rect => simp [geometric, hsq]
    | elip =>
      have hprod : 0 < (a : Int) ^ 2 * (b : Int) ^ 2 ↔ 0 < a ∧ 0 < b := by
        rw [← mul_pow, ← Nat.cast_mul, hsq, CanonicallyOrderedAdd.mul_pos]
      simp [geometric, hprod]
  · rw [if_neg h]
    cases type with
    | circle =>
      simp only [geoRelativePosition_circle h, and_assoc, exists_and_left, exists_eq_left,
        sign_compare]
      simp [geometric, sub_sub]
    | rect =>
      simp only [geoRelativePosition_rect h, and_assoc, exists_and_left, exists_eq_left,
        sign_rect h]
      simp
    | elip =>
      simp only [geoRelativePosition_elip h, and_assoc, exists_and_left, exists_eq_left,
        sign_compare]
      simp [geometric, sub_sub]

/-- The square of `65536` does not fit; with operations that wrap around, a point so far away lies
inside a circle of 100 metres. -/
theorem not_placed_65536 :
    ¬ Placed 65536 0 100 100 .circle ∧ (geometric 65536 0 100 100 .circle).sign = -1 ∧
      Id.run (geoRelativePosition (fun v => pure (Int.bmod v (2 ^ 32))) 65536 0 100 100 .circle) =
        1 := by
  refine ⟨?_, by decide, by decide⟩
  rintro ⟨f, hf, -⟩
  have hnone : geoRelativePosition checked 65536 0 100 100 .circle = none := by decide
  rw [hnone] at hf
  cases hf

end SatComm.GeoNet
