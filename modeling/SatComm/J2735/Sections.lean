import SatComm.J2735.Decode
import SatComm.J2735.Encode

/-!
# Reading the sections of Part II back

For each section: the widths of its fields, what it is to get the section back (`Agrees`, for the
fields that the option bits select), and that the decoder reads it from a message that carries the
fields the encoder writes. Some fields are not written as they are; `Exact` says for which values
nothing is lost. The initial position can be read only without heading and speed: the encoder
writes the heading twice and the speed not at all.
-/

namespace SatComm.J2735

open Bits Asnbuf Reader

variable {m : Mem} {last p : Nat}

/-- A value with an encoding offset that has `n` bits. -/
def Fits (n : Nat) (offset x : Int) : Prop := offset ≤ x ∧ x < offset + 2 ^ n

theorem Fits.lt {n : Nat} {offset x : Int} (h : Fits n offset x) (hn : n ≤ 32) :
    u32 (x - offset) < 2 ^ n := by
  obtain ⟨h₁, h₂⟩ := h
  have hpow : (2 : Int) ^ n ≤ 2 ^ 32 := pow_le_pow_right₀ (by decide) hn
  have hcast : ((2 ^ n : Nat) : Int) = 2 ^ n := by push_cast; rfl
  unfold u32
  rw [Int.emod_eq_of_lt (by omega) (by omega)]
  omega

theorem Fits.int {n : Nat} {offset x : Int} (h : Fits n offset x) (h₁ : -2 ^ 31 ≤ offset)
    (h₂ : offset + 2 ^ n ≤ 2 ^ 31) : -2 ^ 31 ≤ x ∧ x < 2 ^ 31 :=
  ⟨h₁.trans h.1, h.2.trans_le h₂⟩

theorem u32_lt (x : Int) : u32 x < 2 ^ 32 := by
  unfold u32
  omega

/-- A field with an encoding offset, of an `int` whose pattern has the width of the field. -/
theorem parses_signedField {n : Nat} {hn : 0 < n ∧ n ≤ 32} {offset x : Int}
    (hlt : u32 (x - offset) < 2 ^ n) (hx : -2 ^ 31 ≤ x ∧ x < 2 ^ 31) :
    Parses m last (readSigned n hn offset) p [⟨n, u32 (x - offset)⟩] (· = x) :=
  parses_bits hlt (parses_pure (withOffset_u32 hx.1 hx.2))

theorem parses_signed {β : Type} {n : Nat} {hn : 0 < n ∧ n ≤ 32} {offset x : Int}
    {f : Int → Reader β} {fs : List Field} {R : β → Prop} (hlt : u32 (x - offset) < 2 ^ n)
    (hx : -2 ^ 31 ≤ x ∧ x < 2 ^ 31) (hf : Parses m last (f x) (p + n) fs R) :
    Parses m last (readSigned n hn offset >>= f) p (⟨n, u32 (x - offset)⟩ :: fs) R := by
  refine (parses_signedField hlt hx).bind fun a ha => ?_
  rw [ha]
  exact hf

/-- A field with an encoding offset whose values are all `int`s. -/
theorem parses_fits {β : Type} {n : Nat} {hn : 0 < n ∧ n ≤ 32} {offset x : Int}
    {f : Int → Reader β} {fs : List Field} {R : β → Prop} (h : Fits n offset x)
    (hint : -2 ^ 31 ≤ offset ∧ offset + 2 ^ n ≤ 2 ^ 31)
    (hf : Parses m last (f x) (p + n) fs R) :
    Parses m last (readSigned n hn offset >>= f) p (⟨n, u32 (x - offset)⟩ :: fs) R :=
  parses_signed (h.lt hn.2) (h.int hint.1 hint.2) hf

theorem parses_field {n v : Nat} {hn : 0 < n ∧ n ≤ 32} (hv : v < 2 ^ n) :
    Parses m last (bits n hn) p [⟨n, v⟩] (· = v) :=
  parses_bits hv (parses_pure rfl)

/-- The bit in front of a section that says that nothing is added to it. -/
theorem parses_notExtended {β : Type} {f : Nat → Reader β} {fs : List Field} {R : β → Prop}
    (hf : Parses m last (f 0) (p + 1) fs R) :
    Parses m last (bits 1 >>= f) p (⟨1, 0⟩ :: fs) R :=
  parses_bits (Nat.two_pow_pos 1) hf

section options

variable {α β : Type} {c : Prop} [Decidable c] {absent : α} {x : Reader α} {f : α → Reader β}
  {fs gs : List Field} {Q : α → Prop} {R : β → Prop}

/-- A part that is not selected. -/
theorem parses_absent (h : ¬ c) (hf : Parses m last (f absent) p fs R) :
    Parses m last (optional c absent x >>= f) p fs R := by
  have habsent : optional c absent x = done absent := if_neg h
  rw [habsent]
  exact hf

/-- A part that may be selected, and what follows it. -/
theorem parses_option (hx : c → Parses m last x p fs Q)
    (hf : ∀ a, (c → Q a) → Parses m last (f a) (p + fieldWidth (if c then fs else [])) gs R) :
    Parses m last (optional c absent x >>= f) p ((if c then fs else []) ++ gs) R :=
  (parses_optional hx).bind fun a ha => hf a ha.1

/-- The last part, which may be selected. -/
theorem parses_option_finish {g : α → β} (hx : c → Parses m last x p fs Q)
    (hg : ∀ a, (c → Q a) → R (g a)) :
    Parses m last (optional c absent x >>= fun a => pure (g a)) p (if c then fs else []) R :=
  (parses_optional hx).finish fun a ha => hg a ha.1

end options

/-! ## What belongs to which extension -/

/-- The members that the safety extension sets. -/
def BsmValue.safetyPart (v : BsmValue) :=
  (v.hasSafetyExtension, v.vehsafeopts, v.events, v.phopts, v.ph, v.pp, v.lightsInUse)

/-- The members that the special extension sets. -/
def BsmValue.specialPart (v : BsmValue) :=
  (v.hasSpecialExtension, v.specvehopts, v.edopts, v.vehicleAlerts, v.eventopts, v.description)

/-! ## The safety extension -/

structure PosAccuracy.InWidth (v : PosAccuracy) : Prop where
  semiMajor : v.semiMajor < 2 ^ 8
  semiMinor : v.semiMinor < 2 ^ 8
  orientation : v.orientation < 2 ^ 16

theorem parses_posAccuracy {v : PosAccuracy} (h : v.InWidth) :
    Parses m last readPosAccuracy p (posAccuracyFields v) (· = v) :=
  parses_bits h.semiMajor (parses_bits h.semiMinor (parses_bits h.orientation (parses_pure rfl)))

/-- The UTC time is not selected. -/
structure FullPositionVector.InWidth (v : FullPositionVector) : Prop where
  opts : v.opts < 2 ^ 7
  lon : -2 ^ 31 ≤ v.lon ∧ v.lon < 2 ^ 31
  lat : Fits 31 (-900000000) v.lat
  elevation : Fits 16 (-4096) v.elevation
  heading : v.heading < 2 ^ 15
  speed : v.speed < 2 ^ 13
  posAccuracy : v.posAccuracy.InWidth
  timeConfidence : v.timeConfidence < 2 ^ 6
  posConfidence : v.posConfidence.xy < 2 ^ 4 ∧ v.posConfidence.elevation < 2 ^ 4
  motionConfidence : v.motionConfidenceSet.headingConfidence < 2 ^ 3 ∧
    v.motionConfidenceSet.speedConfidence < 2 ^ 3 ∧
    v.motionConfidenceSet.throttleConfidence < 2 ^ 2

structure FullPositionVector.Agrees (v a : FullPositionVector) : Prop where
  opts : a.opts = v.opts
  lon : a.lon = v.lon
  lat : a.lat = v.lat
  elevation : v.opts &&& 0x40 ≠ 0 → a.elevation = v.elevation
  heading : v.opts &&& 0x20 ≠ 0 → a.heading = v.heading
  speed : v.opts &&& 0x10 ≠ 0 → a.speed = v.speed
  posAccuracy : v.opts &&& 0x8 ≠ 0 → a.posAccuracy = v.posAccuracy
  timeConfidence : v.opts &&& 0x4 ≠ 0 → a.timeConfidence = v.timeConfidence
  posConfidence : v.opts &&& 0x2 ≠ 0 → a.posConfidence = v.posConfidence
  motionConfidenceSet : v.opts &&& 0x1 ≠ 0 → a.motionConfidenceSet = v.motionConfidenceSet

theorem parses_posConfidence {v : PosConfidenceSet}
    (h : v.xy < 2 ^ 4 ∧ v.elevation < 2 ^ 4) :
    Parses m last readPosConfidenceSet p [⟨4, v.xy⟩, ⟨4, v.elevation⟩] (· = v) :=
  parses_bits h.1 (parses_bits h.2 (parses_pure rfl))

theorem parses_motionConfidence {v : MotionConfidenceSet}
    (h : v.headingConfidence < 2 ^ 3 ∧ v.speedConfidence < 2 ^ 3 ∧ v.throttleConfidence < 2 ^ 2) :
    Parses m last readMotionConfidenceSet p
      [⟨3, v.headingConfidence⟩, ⟨3, v.speedConfidence⟩, ⟨2, v.throttleConfidence⟩] (· = v) :=
  parses_bits h.1 (parses_bits h.2.1 (parses_bits h.2.2 (parses_pure rfl)))

/-- An option bit that is not there. -/
theorem and_eq_zero_of_lt {n k : Nat} (h : n < 2 ^ k) : n &&& 2 ^ k = 0 := by
  rw [Nat.and_two_pow, Nat.testBit_lt_two_pow h]
  simp

/-- An initial position without heading and speed. -/
theorem parses_initialPosition (old : FullPositionVector) {v : FullPositionVector} (h : v.InWidth)
    (hlaid : v.opts &&& 0x30 = 0) :
    Parses m last (readInitialPosition old) p (initialPositionFields v) v.Agrees := by
  have hopts : v.opts &&& 0x7f = v.opts := Nat.and_two_pow_sub_one_of_lt_two_pow h.opts
  have hutc : v.opts &&& 0x80 = 0 := and_eq_zero_of_lt h.opts
  have hheading : v.opts &&& 0x20 = 0 := and_eq_zero_of_subset hlaid rfl
  have hspeed : v.opts &&& 0x10 = 0 := and_eq_zero_of_subset hlaid rfl
  unfold readInitialPosition initialPositionFields
  simp only [hopts, if_neg (not_not.mpr hheading), List.nil_append]
  refine parses_notExtended (parses_bits (h.opts.trans (by decide)) ?_)
  apply parses_absent (not_not.mpr hutc)
  apply parses_signed (u32_lt _) h.lon
  apply parses_fits h.lat (by decide)
  refine parses_option (fun _ => parses_signedField (h.elevation.lt (by decide))
    (h.elevation.int (by decide) (by decide))) fun elevation helevation => ?_
  refine parses_absent (not_not.mpr hheading) (parses_absent (not_not.mpr hspeed) ?_)
  refine parses_option (fun _ => parses_posAccuracy h.posAccuracy) fun accuracy haccuracy => ?_
  refine parses_option (fun _ => parses_field h.timeConfidence) fun time htime => ?_
  refine parses_option (fun _ => parses_posConfidence h.posConfidence) fun pos hpos => ?_
  refine parses_option_finish (fun _ => parses_motionConfidence h.motionConfidence)
    fun motion hmotion => ?_
  exact ⟨rfl, rfl, rfl, helevation, fun hc => absurd hheading hc, fun hc => absurd hspeed hc,
    haccuracy, htime, hpos, hmotion⟩

/-- Time offsets are multiples of 10 ms, headings multiples of 1500 microdegrees. -/
structure PhPoint.InWidth (v : PhPoint) : Prop where
  opts : v.opts < 2 ^ 3
  latOffset : Fits 18 (-131072) v.latOffset
  lonOffset : Fits 18 (-131072) v.lonOffset
  eleOffset : Fits 12 (-2048) v.eleOffset
  timeOffsetMs : ∃ n : Nat, n < 2 ^ 16 ∧ v.timeOffsetMs = 10 * ((n : Int) + 1)
  speed : v.speed < 2 ^ 13
  accy : v.accy.InWidth
  heading : ∃ n < 2 ^ 8, v.headingMicrodegrees = n * 1500

structure PhPoint.Agrees (v a : PhPoint) : Prop where
  opts : a.opts = v.opts
  latOffset : a.latOffset = v.latOffset
  lonOffset : a.lonOffset = v.lonOffset
  eleOffset : a.eleOffset = v.eleOffset
  timeOffsetMs : a.timeOffsetMs = v.timeOffsetMs
  speed : v.opts &&& 0x4 ≠ 0 → a.speed = v.speed
  accy : v.opts &&& 0x2 ≠ 0 → a.accy = v.accy
  heading : v.opts &&& 0x1 ≠ 0 → a.headingAvailable = v.headingAvailable ∧
    (v.headingAvailable = true → a.headingMicrodegrees = v.headingMicrodegrees)

/-- A heading that is available is below the code for one that is not. -/
def PhPoint.Exact (v : PhPoint) : Prop :=
  v.opts &&& 0x1 ≠ 0 → v.headingAvailable = true → v.headingMicrodegrees < 240 * 1500

theorem parses_coarseHeading (old : Nat) {v : PhPoint} (h : v.InWidth) :
    Parses m last (readCoarseHeading old) p [⟨8, coarseHeading v⟩] fun a =>
      a.1 = v.headingAvailable ∧ (v.headingAvailable = true → a.2 = v.headingMicrodegrees) ↔
        (v.headingAvailable = true → v.headingMicrodegrees < 240 * 1500) := by
  obtain ⟨n, hn, hheading⟩ := h.heading
  have hcode : coarseHeading v = if v.headingAvailable then n else 240 := by
    rw [coarseHeading, hheading, Nat.mul_div_cancel n (by decide)]
  have hlt : coarseHeading v < 2 ^ 8 := by
    rw [hcode]
    split_ifs <;> omega
  refine parses_bits hlt (parses_pure ?_)
  rw [hcode, hheading]
  cases v.headingAvailable with
  | false => simp
  | true =>
    by_cases hn240 : n < 240
    · simp [hn240]
      omega
    · simp [hn240]
      omega

theorem parses_crumb (old : PhPoint) {v : PhPoint} (h : v.InWidth) :
    Parses m last (readCrumb old) p (crumbFields v) fun a => v.Agrees a ↔ v.Exact := by
  obtain ⟨n, hn, htime⟩ := h.timeOffsetMs
  have hcode : u32 ((v.timeOffsetMs - 1).tdiv 10) = n := by
    rw [htime, Int.tdiv_eq_ediv_of_nonneg (by omega), u32]
    omega
  unfold readCrumb crumbFields
  rw [hcode]
  refine parses_notExtended (parses_bits h.opts ?_)
  apply parses_fits h.latOffset (by decide)
  apply parses_fits h.lonOffset (by decide)
  apply parses_fits h.eleOffset (by decide)
  apply parses_bits hn
  refine parses_option (fun _ => parses_field h.speed) fun speed hspeed => ?_
  refine parses_option (fun _ => parses_posAccuracy h.accy) fun accy haccy => ?_
  refine parses_option_finish (fun _ => parses_coarseHeading _ h) fun heading hheading => ?_
  constructor
  · exact fun hagrees hc => (hheading hc).mp (hagrees.heading hc)
  · exact fun hexact => ⟨rfl, rfl, rfl, rfl, by rw [htime], hspeed, haccy,
      fun hc => (hheading hc).mpr (hexact hc)⟩

structure PathHistory.InWidth (phopts : Nat) (v : PathHistory) : Prop where
  opts : phopts < 2 ^ 2
  initialPosition : phopts &&& 0x2 ≠ 0 → v.initialPosition.InWidth
  gnssStatus : v.gnssStatus < 2 ^ 8
  qtyCrumbs : 1 ≤ v.qtyCrumbs ∧ v.qtyCrumbs ≤ 23
  phCrumb : ∀ i < v.qtyCrumbs, (v.phCrumb i).InWidth

structure PathHistory.Agrees (phopts : Nat) (v a : PathHistory) : Prop where
  initialPosition : phopts &&& 0x2 ≠ 0 → v.initialPosition.Agrees a.initialPosition
  gnssStatus : phopts &&& 0x1 ≠ 0 → a.gnssStatus = v.gnssStatus
  qtyCrumbs : a.qtyCrumbs = v.qtyCrumbs
  phCrumb : ∀ i < v.qtyCrumbs, (v.phCrumb i).Agrees (a.phCrumb i)

def PathHistory.Exact (v : PathHistory) : Prop := ∀ i < v.qtyCrumbs, (v.phCrumb i).Exact

/-- The initial position has neither heading nor speed. -/
def PathHistory.Laid (phopts : Nat) (v : PathHistory) : Prop :=
  phopts &&& 0x2 ≠ 0 → v.initialPosition.opts &&& 0x30 = 0

theorem u32_pred {n k : Nat} (h : 1 ≤ n) (hk : n ≤ 2 ^ k) (hk' : k ≤ 32) :
    u32 ((n : Int) - 1) = n - 1 ∧ n - 1 < 2 ^ k := by
  have hpow : 2 ^ k ≤ 2 ^ 32 := Nat.pow_le_pow_right (by decide) hk'
  unfold u32
  omega

/-- What a loop over an array has set, element by element. -/
theorem setArray_of_forall₂ {α : Type} {Q : Nat → α → Prop} {n : Nat} {new : List α}
    (old : Nat → α) (h : List.Forall₂ Q (List.range n) new) :
    ∀ i < n, Q i (setArray old new i) := by
  intro i hi
  have hlength := h.length_eq
  rw [List.length_range] at hlength
  have hget := h.get (i := i) (by rw [List.length_range]; exact hi) (by omega)
  simpa [setArray, List.getD, hlength ▸ hi] using hget

theorem parses_pathHistory (old : PathHistory) {phopts : Nat} {v : PathHistory}
    (h : v.InWidth phopts) (hlaid : v.Laid phopts) :
    Parses m last (readPathHistory old) p (pathHistoryFields phopts v) fun a =>
      a.1 = phopts ∧ (v.Agrees phopts a.2 ↔ v.Exact) := by
  obtain ⟨hcode, hlt⟩ :=
    u32_pred (k := 5) h.qtyCrumbs.1 (h.qtyCrumbs.2.trans (by decide)) (by decide)
  have hsucc : v.qtyCrumbs - 1 + 1 = v.qtyCrumbs := Nat.sub_add_cancel h.qtyCrumbs.1
  unfold readPathHistory pathHistoryFields
  rw [hcode]
  refine parses_notExtended (parses_bits h.opts ?_)
  refine parses_option (fun hc => parses_initialPosition _ (h.initialPosition hc) (hlaid hc))
    fun position hposition => ?_
  refine parses_option (fun _ => parses_field h.gnssStatus) fun gnss hgnss => ?_
  apply parses_bits hlt
  dsimp only
  rw [hsucc, if_neg (by have := h.qtyCrumbs.2; omega)]
  have hcrumbs : ∀ p', Parses m last
      (forEach (fun i => readCrumb (old.phCrumb i)) (List.range v.qtyCrumbs)) p'
      ((List.range v.qtyCrumbs).flatMap fun i => crumbFields (v.phCrumb i))
      (List.Forall₂ (fun i a => (v.phCrumb i).Agrees a ↔ (v.phCrumb i).Exact)
        (List.range v.qtyCrumbs)) := fun _ => parses_forEach _ fun i hi _ =>
    parses_crumb (old.phCrumb i) (h.phCrumb i (List.mem_range.mp hi))
  refine (hcrumbs _).finish fun crumbs hall => ⟨rfl, ?_⟩
  have hall := setArray_of_forall₂ old.phCrumb hall
  constructor
  · exact fun hagrees i hi => (hall i hi).mp (hagrees.phCrumb i hi)
  · exact fun hexact => ⟨hposition, hgnss, rfl, fun i hi => (hall i hi).mpr (hexact i hi)⟩

structure PathPrediction.InWidth (v : PathPrediction) : Prop where
  radius : Fits 16 (-32767) v.radius
  confidence : v.confidence < 2 ^ 8

/-- The path is straight when the radius says so. -/
def PathPrediction.Exact (v : PathPrediction) : Prop := v.isStraight = true ↔ v.radius = 0

theorem parses_pathPrediction {v : PathPrediction} (h : v.InWidth) :
    Parses m last readPathPrediction p (pathPredictionFields v) fun a => a = v ↔ v.Exact := by
  have hradius : (u32 (v.radius - -32767) : Int) = v.radius + 32767 := by
    obtain ⟨h₁, h₂⟩ := h.radius
    rw [u32_of_nonneg (by omega) (by omega)]
    omega
  refine parses_notExtended (parses_bits (h.radius.lt (by decide)) ?_)
  refine parses_bits h.confidence (parses_pure ?_)
  obtain ⟨straight, radius, confidence⟩ := v
  dsimp only at hradius ⊢
  have hstraight : (u32 (radius - -32767) == 32767) = decide (radius = 0) := by
    rw [Bool.beq_eq_decide_eq]
    exact decide_eq_decide.mpr (by omega)
  rw [hradius, hstraight, add_sub_cancel_right, PathPrediction.Exact, PathPrediction.mk.injEq]
  dsimp only
  constructor
  · rintro ⟨rfl, -, -⟩
    exact decide_eq_true_iff
  · intro hexact
    refine ⟨?_, rfl, rfl⟩
    rw [Bool.eq_iff_iff, decide_eq_true_iff]
    exact hexact.symm

theorem parses_flags {n v : Nat} {hn : 0 < n ∧ n ≤ 32} (h : v < 2 ^ n) :
    Parses m last (readFlags n hn) p [⟨1, 0⟩, ⟨n, v⟩] (· = v) :=
  parses_notExtended (parses_field h)

structure BsmValue.SafetyInWidth (v : BsmValue) : Prop where
  opts : v.vehsafeopts < 2 ^ 4
  events : v.events < 2 ^ 13
  ph : v.vehsafeopts &&& 0x4 ≠ 0 → v.ph.InWidth v.phopts
  pp : v.vehsafeopts &&& 0x2 ≠ 0 → v.pp.InWidth
  lightsInUse : v.lightsInUse < 2 ^ 9

structure BsmValue.SafetyAgrees (v a : BsmValue) : Prop where
  present : a.hasSafetyExtension = true
  opts : a.vehsafeopts = v.vehsafeopts
  events : v.vehsafeopts &&& 0x8 ≠ 0 → a.events = v.events
  ph : v.vehsafeopts &&& 0x4 ≠ 0 → a.phopts = v.phopts ∧ v.ph.Agrees v.phopts a.ph
  pp : v.vehsafeopts &&& 0x2 ≠ 0 → a.pp = v.pp
  lightsInUse : v.vehsafeopts &&& 0x1 ≠ 0 → a.lightsInUse = v.lightsInUse

structure BsmValue.SafetyExact (v : BsmValue) : Prop where
  ph : v.vehsafeopts &&& 0x4 ≠ 0 → v.ph.Exact
  pp : v.vehsafeopts &&& 0x2 ≠ 0 → v.pp.Exact

def BsmValue.SafetyLaid (v : BsmValue) : Prop := v.vehsafeopts &&& 0x4 ≠ 0 → v.ph.Laid v.phopts

theorem parses_safetyContent (old : BsmValue) {v : BsmValue} (h : v.SafetyInWidth)
    (hlaid : v.SafetyLaid) :
    Parses m last (readSafetyContent old) p (safetyFields v) fun a =>
      (v.SafetyAgrees a ↔ v.SafetyExact) ∧
        a.qtyPartIIExtensions = old.qtyPartIIExtensions := by
  unfold readSafetyContent safetyFields
  refine parses_notExtended (parses_bits h.opts ?_)
  refine parses_option (fun _ => parses_flags h.events) fun events hevents => ?_
  refine parses_option (fun hc => parses_pathHistory _ (h.ph hc) (hlaid hc)) fun ph hph => ?_
  refine parses_option (fun hc => parses_pathPrediction (h.pp hc)) fun pp hpp => ?_
  refine parses_option_finish (fun _ => parses_flags h.lightsInUse) fun lights hlights => ?_
  refine ⟨?_, rfl⟩
  constructor
  · exact fun hagrees =>
      ⟨fun hc => (hph hc).2.mp (hagrees.ph hc).2, fun hc => (hpp hc).mp (hagrees.pp hc)⟩
  · exact fun hexact => ⟨rfl, rfl, hevents, fun hc => ⟨(hph hc).1, (hph hc).2.mpr (hexact.ph hc)⟩,
      fun hc => (hpp hc).mpr (hexact.pp hc), hlights⟩

/-! ## The special extension -/

structure EmergencyDetails.InWidth (edopts : Nat) (v : EmergencyDetails) : Prop where
  opts : edopts < 2 ^ 2
  sspRights : v.sspRights < 2 ^ 5
  sirenUse : v.sirenUse < 2 ^ 2
  lightsUse : v.lightsUse < 2 ^ 3
  multi : v.multi < 2 ^ 2
  events : v.events.sspRights < 2 ^ 5 ∧ v.events.event < 2 ^ 16
  responseType : v.responseType < 2 ^ 3

structure EmergencyDetails.Agrees (edopts : Nat) (v a : EmergencyDetails) : Prop where
  sspRights : a.sspRights = v.sspRights
  sirenUse : a.sirenUse = v.sirenUse
  lightsUse : a.lightsUse = v.lightsUse
  multi : a.multi = v.multi
  events : edopts &&& 0x2 ≠ 0 → a.events = v.events
  responseType : edopts &&& 0x1 ≠ 0 → a.responseType = v.responseType

/-- The rights of the privileged events are those of the emergency details. -/
def EmergencyDetails.Exact (edopts : Nat) (v : EmergencyDetails) : Prop :=
  edopts &&& 0x2 ≠ 0 → v.events.sspRights = v.sspRights

theorem parses_privilegedEvents {sspRights event : Nat} (h₁ : sspRights < 2 ^ 5)
    (h₂ : event < 2 ^ 16) :
    Parses m last readPrivilegedEvents p [⟨1, 0⟩, ⟨5, sspRights⟩, ⟨16, event⟩]
      (· = ⟨sspRights, event⟩) :=
  parses_notExtended (parses_bits h₁ (parses_bits h₂ (parses_pure rfl)))

theorem parses_emergencyDetails (old : EmergencyDetails) {edopts : Nat} {v : EmergencyDetails}
    (h : v.InWidth edopts) :
    Parses m last (readEmergencyDetails old) p (emergencyDetailsFields edopts v) fun a =>
      a.1 = edopts ∧ (v.Agrees edopts a.2 ↔ v.Exact edopts) := by
  unfold readEmergencyDetails emergencyDetailsFields
  refine parses_notExtended (parses_bits h.opts (parses_bits h.sspRights ?_))
  refine parses_bits h.sirenUse (parses_bits h.lightsUse (parses_bits h.multi ?_))
  refine parses_option (fun _ => parses_privilegedEvents h.sspRights h.events.2)
    fun events hevents => ?_
  refine parses_option_finish (fun _ => parses_flags h.responseType) fun response hresponse => ?_
  refine ⟨rfl, ?_⟩
  constructor
  · intro hagrees hc
    have heq : v.events = ⟨v.sspRights, v.events.event⟩ :=
      (hagrees.events hc).symm.trans (hevents hc)
    rw [heq]
  · intro hexact
    refine ⟨rfl, rfl, rfl, rfl, fun hc => ?_, hresponse⟩
    rw [hevents hc, ← hexact hc]

structure EventDescription.InWidth (eventopts : Nat) (v : EventDescription) : Prop where
  opts : eventopts < 2 ^ 5
  typeEvent : v.typeEvent < 2 ^ 16
  sizeDesc : eventopts &&& 0x10 ≠ 0 → 1 ≤ v.sizeDesc ∧ v.sizeDesc ≤ 8
  desc : ∀ i < v.sizeDesc, v.desc i < 2 ^ 16
  priority : v.priority < 2 ^ 8
  heading : v.heading < 2 ^ 16
  extent : v.extent < 2 ^ 4

structure EventDescription.Agrees (eventopts : Nat) (v a : EventDescription) : Prop where
  typeEvent : a.typeEvent = v.typeEvent
  desc : eventopts &&& 0x10 ≠ 0 → a.sizeDesc = v.sizeDesc ∧ ∀ i < v.sizeDesc, a.desc i = v.desc i
  priority : eventopts &&& 0x8 ≠ 0 → a.priority = v.priority
  heading : eventopts &&& 0x4 ≠ 0 → a.heading = v.heading
  extent : eventopts &&& 0x2 ≠ 0 → a.extent = v.extent

theorem parses_descriptions (old : EventDescription) {v : EventDescription}
    (hsize : 1 ≤ v.sizeDesc ∧ v.sizeDesc ≤ 8) (hdesc : ∀ i < v.sizeDesc, v.desc i < 2 ^ 16) :
    Parses m last (readDescriptions old) p (descriptionsFields v) fun a =>
      a.1 = v.sizeDesc ∧ ∀ i < v.sizeDesc, a.2 i = v.desc i := by
  obtain ⟨hcode, hlt⟩ := u32_pred (k := 3) hsize.1 hsize.2 (by decide)
  have hsucc : v.sizeDesc - 1 + 1 = v.sizeDesc := Nat.sub_add_cancel hsize.1
  unfold readDescriptions descriptionsFields
  rw [hcode]
  apply parses_bits hlt
  rw [hsucc]
  have hall : ∀ p', Parses m last (forEach (fun _ => bits 16) (List.range v.sizeDesc)) p'
      ((List.range v.sizeDesc).flatMap fun i => [⟨16, v.desc i⟩])
      (List.Forall₂ (fun i a => a = v.desc i) (List.range v.sizeDesc)) := fun _ =>
    parses_forEach _ fun i hi _ => parses_field (hdesc i (List.mem_range.mp hi))
  exact (hall _).finish fun desc hdesc => ⟨rfl, setArray_of_forall₂ old.desc hdesc⟩

theorem parses_eventDescription (old : EventDescription) {eventopts : Nat} {v : EventDescription}
    (h : v.InWidth eventopts) :
    Parses m last (readEventDescription old) p (eventDescriptionFields eventopts v) fun a =>
      a.1 = eventopts ∧ v.Agrees eventopts a.2 := by
  unfold readEventDescription eventDescriptionFields
  refine parses_notExtended (parses_bits h.opts (parses_bits h.typeEvent ?_))
  refine parses_option (fun hc => parses_descriptions _ (h.sizeDesc hc) h.desc) fun desc hdesc => ?_
  refine parses_option (fun _ => parses_field h.priority) fun priority hpriority => ?_
  refine parses_option (fun _ => parses_field h.heading) fun heading hheading => ?_
  refine parses_option_finish (fun _ => parses_field h.extent) fun extent hextent => ?_
  exact ⟨rfl, rfl, hdesc, hpriority, hheading, hextent⟩

structure BsmValue.SpecialInWidth (v : BsmValue) : Prop where
  opts : v.specvehopts < 2 ^ 3
  vehicleAlerts : v.specvehopts &&& 0x4 ≠ 0 → v.vehicleAlerts.InWidth v.edopts
  description : v.specvehopts &&& 0x2 ≠ 0 → v.description.InWidth v.eventopts

structure BsmValue.SpecialAgrees (v a : BsmValue) : Prop where
  present : a.hasSpecialExtension = true
  opts : a.specvehopts = v.specvehopts
  vehicleAlerts : v.specvehopts &&& 0x4 ≠ 0 →
    a.edopts = v.edopts ∧ v.vehicleAlerts.Agrees v.edopts a.vehicleAlerts
  description : v.specvehopts &&& 0x2 ≠ 0 →
    a.eventopts = v.eventopts ∧ v.description.Agrees v.eventopts a.description

def BsmValue.SpecialExact (v : BsmValue) : Prop :=
  v.specvehopts &&& 0x4 ≠ 0 → v.vehicleAlerts.Exact v.edopts

/-- The bit the decoder takes for the trailer data, which the encoder has not written. -/
def trailerBit (m : Mem) (p : Nat) (v : BsmValue) : List Field :=
  if v.specvehopts &&& 0x1 ≠ 0 then [⟨1, m.field (p + fieldWidth (specialFields v)) 1⟩] else []

theorem parses_specialContent (old : BsmValue) {v : BsmValue} (h : v.SpecialInWidth)
    (hleft : 8 - (p + 1) % 8 ≤ 3) (hend : (p + 1 + 3) / 8 ≤ last) :
    Parses m last (readSpecialContent old) p (specialFields v ++ trailerBit m p v) fun a =>
      (v.SpecialAgrees a ↔ v.SpecialExact) ∧ a.safetyPart = old.safetyPart ∧
        a.qtyPartIIExtensions = old.qtyPartIIExtensions := by
  have hbit : ∀ q, m.field q 1 < 2 ^ 1 := fun q => m.field_lt q 1
  unfold readSpecialContent specialFields
  rw [List.append_assoc, List.append_assoc]
  refine parses_notExtended (parses_needBits (by decide) (.inl hleft) hend ?_)
  apply parses_bits h.opts
  refine parses_option (fun hc => parses_emergencyDetails _ (h.vehicleAlerts hc)) fun ed hed => ?_
  refine parses_option (fun hc => parses_eventDescription _ (h.description hc)) fun desc hdesc => ?_
  refine parses_option_finish (fun _ => parses_field (hbit _)) fun trailer _ => ?_
  refine ⟨?_, rfl, rfl⟩
  constructor
  · exact fun hagrees hc => (hed hc).2.mp (hagrees.vehicleAlerts hc).2
  · exact fun hexact => ⟨rfl, rfl, fun hc => ⟨(hed hc).1, (hed hc).2.mpr (hexact hc)⟩, hdesc⟩

/-! ## The supplemental extension -/

/-- Heights are multiples of 5 cm. -/
structure VehicleData.InWidth (v : VehicleData) : Prop where
  opts : v.opts < 2 ^ 4
  heightCm : ∃ n < 2 ^ 7, v.heightCm = n * 5
  frontBumperHeightCm : v.frontBumperHeightCm < 2 ^ 7
  rearBumperHeightCm : v.rearBumperHeightCm < 2 ^ 7
  massKg : v.massKg < 2 ^ 32
  trailerWeight : v.trailerWeight < 2 ^ 16

structure VehicleData.Agrees (v a : VehicleData) : Prop where
  opts : a.opts = v.opts
  heightCm : v.opts &&& 0x8 ≠ 0 → a.heightCm = v.heightCm
  bumpers : v.opts &&& 0x4 ≠ 0 →
    a.frontBumperHeightCm = v.frontBumperHeightCm ∧ a.rearBumperHeightCm = v.rearBumperHeightCm
  massKg : v.opts &&& 0x2 ≠ 0 → a.massKg = v.massKg
  trailerWeight : v.opts &&& 0x1 ≠ 0 → a.trailerWeight = v.trailerWeight

/-- The masses that have a code: steps of 50 kg, 500 kg and 2000 kg, then "above" and
"unknown". -/
def OnMassScale (kg : Nat) : Prop :=
  kg ≤ 4000 ∧ kg % 50 = 0 ∨ 4000 ≤ kg ∧ kg ≤ 64000 ∧ kg % 500 = 0 ∨
    64000 ≤ kg ∧ kg ≤ 170000 ∧ kg % 2000 = 0 ∨ kg = 170001 ∨ kg = 2 ^ 32 - 1

instance (kg : Nat) : Decidable (OnMassScale kg) := inferInstanceAs (Decidable (_ ∨ _))

theorem vehicleMassDecode_of_le {n : Nat} (h : n ≤ 80) : vehicleMassDecode n = 50 * n := by
  rw [vehicleMassDecode, if_neg (by omega), if_neg (by omega)]
  simp only [if_neg (show ¬ 200 < n by omega), if_neg (show ¬ 80 < n by omega)]
  omega

theorem vehicleMassDecode_of_le_of_le {n : Nat} (h : 80 ≤ n) (h' : n ≤ 200) :
    vehicleMassDecode n = 4000 + 500 * (n - 80) := by
  rw [vehicleMassDecode, if_neg (by omega), if_neg (by omega)]
  simp only [if_neg (show ¬ 200 < n by omega)]
  split_ifs <;> omega

theorem vehicleMassDecode_of_lt {n : Nat} (h : 200 ≤ n) (h' : n < 254) :
    vehicleMassDecode n = 64000 + 2000 * (n - 200) := by
  rw [vehicleMassDecode, if_neg (by omega), if_neg (by omega)]
  dsimp only
  split_ifs <;> omega

theorem vehicleMassDecode_encode {kg : Nat} (h : kg < 2 ^ 32) :
    vehicleMassDecode (vehicleMassEncode (s32 kg)) = kg ↔ OnMassScale kg := by
  have hmod : kg % 2 ^ 32 = kg := Nat.mod_eq_of_lt h
  have hunknown : u32 (-1) = 2 ^ 32 - 1 := rfl
  unfold OnMassScale s32
  rw [hmod]
  by_cases hneg : kg < 2 ^ 31
  · rw [if_pos hneg, vehicleMassEncode, if_neg (by omega)]
    -- one case for each step of the scale
    split_ifs with habove hfine hmiddle
    · have hdecode : vehicleMassDecode 254 = 170001 := rfl
      rw [hdecode]
      omega
    · rw [vehicleMassDecode_of_le (by omega)]
      omega
    · rw [vehicleMassDecode_of_le_of_le (by omega) (by omega)]
      omega
    · rw [vehicleMassDecode_of_lt (by omega) (by omega)]
      omega
  · rw [if_neg hneg, vehicleMassEncode, if_pos (by omega), vehicleMassDecode, if_pos rfl, hunknown]
    omega

def VehicleData.Exact (v : VehicleData) : Prop := v.opts &&& 0x2 ≠ 0 → OnMassScale v.massKg

theorem parses_height {n : Nat} (h : n < 2 ^ 7) (hleft : p % 8 ≠ 0) (hend : (p + 7) / 8 ≤ last) :
    Parses m last readHeight p [⟨7, n⟩] (· = n * 5) :=
  parses_needBits (by decide) (by omega) hend (parses_bits h (parses_pure rfl))

theorem parses_bumpers {front rear : Nat} (h₁ : front < 2 ^ 7) (h₂ : rear < 2 ^ 7)
    (hend : (p + 14) / 8 ≤ last) :
    Parses m last readBumpers p [⟨7, front⟩, ⟨7, rear⟩] (· = (front, rear)) :=
  parses_needBits (by decide) (by omega) hend (parses_bits h₁ (parses_bits h₂ (parses_pure rfl)))

theorem parses_mass (kg : Nat) (hend : (p + 8) / 8 ≤ last) :
    Parses m last readMass p [⟨8, vehicleMassEncode (s32 kg)⟩]
      (· = vehicleMassDecode (vehicleMassEncode (s32 kg))) :=
  parses_needBits (by decide) (by omega) hend
    (parses_bits (vehicleMassEncode_lt _) (parses_pure rfl))

theorem parses_trailerWeight {n : Nat} (h : n < 2 ^ 16) (hend : (p + 16) / 8 ≤ last) :
    Parses m last readTrailerWeight p [⟨16, n⟩] (· = n) :=
  parses_needBits (by decide) (by omega) hend (parses_field h)

/-- The first check misses fields that end in front of the end of the last byte. -/
theorem parses_vehicleData (old : VehicleData) {v : VehicleData} (h : v.InWidth)
    (hguard : 8 - p % 8 ≤ 5 ∨ p / 8 < last) (hleft : (p + 5) % 8 ≠ 0)
    (hend : (p + fieldWidth (vehicleDataFields v)) / 8 ≤ last) :
    Parses m last (readVehicleData old) p (vehicleDataFields v) fun a => v.Agrees a ↔ v.Exact := by
  obtain ⟨n, hn, hheight⟩ := h.heightCm
  have hcode : v.heightCm / 5 = n := by rw [hheight, Nat.mul_div_cancel n (by decide)]
  unfold vehicleDataFields at hend
  simp only [fieldWidth_append, fieldWidth_cons, fieldWidth_nil] at hend
  unfold readVehicleData vehicleDataFields
  rw [hcode] at hend ⊢
  apply parses_needBits (by decide) hguard (by omega)
  refine parses_notExtended (parses_bits h.opts ?_)
  refine parses_option (fun hc => parses_height hn hleft ?_) fun height hheight' => ?_
  · simp only [if_pos hc, fieldWidth_cons, fieldWidth_nil] at hend
    omega
  refine parses_option (fun hc => parses_bumpers h.frontBumperHeightCm h.rearBumperHeightCm ?_)
    fun bumpers hbumpers => ?_
  · simp only [if_pos hc, fieldWidth_cons, fieldWidth_nil] at hend
    omega
  refine parses_option (fun hc => parses_mass v.massKg ?_) fun mass hmass => ?_
  · simp only [if_pos hc, fieldWidth_cons, fieldWidth_nil] at hend
    omega
  refine parses_option_finish (fun hc => parses_trailerWeight h.trailerWeight ?_)
    fun weight hweight => ?_
  · simp only [if_pos hc, fieldWidth_cons, fieldWidth_nil] at hend
    omega
  have hscale := vehicleMassDecode_encode h.massKg
  constructor
  · exact fun hagrees hc => hscale.mp ((hmass hc).symm.trans (hagrees.massKg hc))
  · intro hexact
    refine ⟨rfl, fun hc => (hheight' hc).trans hheight.symm, fun hc => ?_,
      fun hc => (hmass hc).trans (hscale.mpr (hexact hc)), hweight⟩
    rw [hbumpers hc]
    exact ⟨rfl, rfl⟩

structure Weather.InWidth (v : Weather) : Prop where
  weatheropts : v.weatheropts < 2 ^ 3
  airTemp : v.airTemp < 2 ^ 8
  airPressure : v.airPressure < 2 ^ 8
  wiperopts : v.wiperopts < 2 ^ 2
  statusFront : v.statusFront < 2 ^ 4
  rateFront : v.rateFront < 2 ^ 7
  statusRear : v.statusRear < 2 ^ 4
  rateRear : v.rateRear < 2 ^ 7

structure Weather.WipersAgree (v a : Weather) : Prop where
  wiperopts : a.wiperopts = v.wiperopts
  statusFront : a.statusFront = v.statusFront
  rateFront : a.rateFront = v.rateFront
  statusRear : v.wiperopts &&& 0x2 ≠ 0 → a.statusRear = v.statusRear
  rateRear : v.wiperopts &&& 0x1 ≠ 0 → a.rateRear = v.rateRear

structure Weather.Agrees (v a : Weather) : Prop where
  weatheropts : a.weatheropts = v.weatheropts
  airTemp : v.weatheropts &&& 0x4 ≠ 0 → a.airTemp = v.airTemp
  airPressure : v.weatheropts &&& 0x2 ≠ 0 → a.airPressure = v.airPressure
  wipers : v.weatheropts &&& 0x1 ≠ 0 → v.WipersAgree a

theorem parses_wipers (old : Weather) {v : Weather} (h : v.InWidth) :
    Parses m last (readWipers old) p (wipersFields v) v.WipersAgree := by
  unfold readWipers wipersFields
  refine parses_bits h.wiperopts (parses_bits h.statusFront (parses_bits h.rateFront ?_))
  refine parses_option (fun _ => parses_field h.statusRear) fun status hstatus => ?_
  refine parses_option_finish (fun _ => parses_field h.rateRear) fun rate hrate => ?_
  exact ⟨rfl, rfl, rfl, hstatus, hrate⟩

theorem parses_weatherProbe (old : Weather) {v : Weather} (h : v.InWidth) :
    Parses m last (readWeatherProbe old) p (weatherProbeFields v) v.Agrees := by
  unfold readWeatherProbe weatherProbeFields
  refine parses_notExtended (parses_bits h.weatheropts ?_)
  refine parses_option (fun _ => parses_field h.airTemp) fun temp htemp => ?_
  refine parses_option (fun _ => parses_field h.airPressure) fun pressure hpressure => ?_
  refine parses_option_finish (fun _ => parses_wipers _ h) fun wipers hwipers => ?_
  refine ⟨rfl, htemp, hpressure, fun hc => ?_⟩
  obtain ⟨h₁, h₂, h₃, h₄, h₅⟩ := hwipers hc
  exact ⟨h₁, h₂, h₃, h₄, h₅⟩

structure BsmValue.SupplementalInWidth (v : BsmValue) : Prop where
  opts : v.suppvehopts < 2 ^ 10
  supported : v.suppvehopts &&& 0x15f = 0
  vehicleClass : v.vehicleClass < 2 ^ 8
  veh : v.suppvehopts &&& 0x80 ≠ 0 → v.veh.InWidth
  weather : v.suppvehopts &&& 0x20 ≠ 0 → v.weather.InWidth

structure BsmValue.SupplementalAgrees (v a : BsmValue) : Prop where
  present : a.hasSupplementalExtension = true
  opts : a.suppvehopts = v.suppvehopts
  vehicleClass : v.suppvehopts &&& 0x200 ≠ 0 → a.vehicleClass = v.vehicleClass
  veh : v.suppvehopts &&& 0x80 ≠ 0 → v.veh.Agrees a.veh
  weather : v.suppvehopts &&& 0x20 ≠ 0 → v.weather.Agrees a.weather

def BsmValue.SupplementalExact (v : BsmValue) : Prop := v.suppvehopts &&& 0x80 ≠ 0 → v.veh.Exact

/-- The position of the vehicle data behind the start of the extension. -/
def vehicleDataStart (v : BsmValue) : Nat := 11 + if v.suppvehopts &&& 0x200 ≠ 0 then 8 else 0

theorem parses_supplementalContent (old : BsmValue) {v : BsmValue} (h : v.SupplementalInWidth)
    (hguard : v.suppvehopts &&& 0x80 ≠ 0 →
      8 - (p + 11) % 8 ≤ 5 ∨ (p + vehicleDataStart v) / 8 < last)
    (hleft : p % 8 ≠ 0) (hend : (p + fieldWidth (supplementalFields v)) / 8 ≤ last) :
    Parses m last (readSupplementalContent old) p (supplementalFields v) fun a =>
      (v.SupplementalAgrees a ↔ v.SupplementalExact) ∧ a.safetyPart = old.safetyPart ∧
        a.specialPart = old.specialPart ∧ a.qtyPartIIExtensions = old.qtyPartIIExtensions := by
  have h₁ : v.suppvehopts &&& 0x100 = 0 := and_eq_zero_of_subset h.supported rfl
  have h₂ : v.suppvehopts &&& 0x40 = 0 := and_eq_zero_of_subset h.supported rfl
  have h₃ : v.suppvehopts &&& 0x1f = 0 := and_eq_zero_of_subset h.supported rfl
  have hclass : fieldWidth (if v.suppvehopts &&& 0x200 ≠ 0 then [⟨8, v.vehicleClass⟩] else []) + 11 =
      vehicleDataStart v := by
    unfold vehicleDataStart
    split <;> rfl
  have hstart : vehicleDataStart v = 11 ∨ vehicleDataStart v = 19 := by
    unfold vehicleDataStart
    split
    · exact .inr rfl
    · exact .inl rfl
  rw [supplementalFields_eq h.supported] at hend ⊢
  simp only [fieldWidth_append, fieldWidth_cons, fieldWidth_nil] at hend
  unfold readSupplementalContent unsupported
  apply parses_needBits (by decide) (by omega) (by omega)
  refine parses_notExtended (parses_bits h.opts ?_)
  refine parses_option (fun _ => parses_field h.vehicleClass) fun vehicleClass hvehicleClass => ?_
  apply parses_absent (not_not.mpr h₁)
  refine parses_option (fun hc => parses_vehicleData _ (h.veh hc) ?_ ?_ ?_) fun veh hveh => ?_
  · have := hguard hc
    omega
  · omega
  · rw [if_pos hc] at hend
    omega
  apply parses_absent (not_not.mpr h₂)
  rw [← List.append_nil (if v.suppvehopts &&& 0x20 ≠ 0 then _ else _)]
  refine parses_option (fun hc => parses_weatherProbe _ (h.weather hc)) fun weather hweather => ?_
  refine parses_absent (not_not.mpr h₃) (parses_pure ?_)
  refine ⟨?_, rfl, rfl, rfl⟩
  constructor
  · exact fun hagrees hc => (hveh hc).mp (hagrees.veh hc)
  · exact fun hexact => ⟨rfl, rfl, hvehicleClass, fun hc => (hveh hc).mpr (hexact hc), hweather⟩

end SatComm.J2735
