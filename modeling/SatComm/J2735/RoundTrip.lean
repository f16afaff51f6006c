import SatComm.Asnbuf.OpenType
import SatComm.J2735.Sections

/-!
# `decode_as_bsm` behind `encode_as_bsm`

The decoder finds Part II where the encoder has put it, and reads its extensions one after the
other. It does not get back every value: some members are written from another one, and some parts
are read that were not written, or written that are not read.
-/

namespace SatComm.J2735

open Bits Asnbuf Reader

variable {m : Mem} {last p : Nat}

/-! ## One extension -/

theorem fieldWidth_extension (p id : Nat) (fields : List Field) :
    p + fieldWidth (extensionFields id fields) =
      contentStart (p + 6) fields + 8 * ((fieldWidth fields + 7) / 8) := by
  rw [contentStart_add, extensionFields, fieldWidth_cons, Nat.add_assoc]

/-- The id in front of an extension, with the check for it. -/
theorem eval_extension {id saved : Nat} {fields : List Field} (old : BsmValue) (hid : id < 2 ^ 6)
    (hp : p % 2 = 0) (hc : Carries m p (extensionFields id fields))
    (hend : (p + fieldWidth (extensionFields id fields)) / 8 ≤ last) :
    (readExtension old).eval m last p saved =
      (if id = 0 then readVehicleSafetyExt old >>= fun v => restore (done v)
      else if id = 1 then readSpecialVehicleExt old >>= fun v => restore (done v)
      else if id = 2 then readSupplementalVehicleExt old >>= fun v => restore (done v)
      else stop).eval m last (p + 6) saved := by
  rw [fieldWidth_extension] at hend
  have hstart := (contentStart_mod (p + 6) fields).2
  have hneed : p / 8 < last ∧ (p + 6) / 8 ≤ last := by omega
  unfold readExtension
  rw [Reader.eval_needBits (by decide) (.inr hneed.1) hneed.2, eval_bits (hc.field_eq hid).1]
  rfl

theorem reads_safetyExtension (old : BsmValue) {v : BsmValue} (h : v.SafetyInWidth)
    (hlaid : v.SafetyLaid) (hp : p % 2 = 0)
    (hc : Carries m p (extensionFields 0 (safetyFields v)))
    (hend : (p + fieldWidth (extensionFields 0 (safetyFields v))) / 8 ≤ last) :
    Reads m last (readExtension old) p fun a q =>
      q = p + fieldWidth (extensionFields 0 (safetyFields v)) ∧
      (v.SafetyAgrees a ↔ v.SafetyExact) ∧
        a.qtyPartIIExtensions = old.qtyPartIIExtensions := by
  have hnarrow := (narrow_safety v fun hc => (h.ph hc).qtyCrumbs.2).le
  have hpos : 0 < fieldWidth (safetyFields v) := by simp [safetyFields]
  have hopen := (hc.field_eq (by decide)).2
  intro saved
  rw [eval_extension old (by decide) hp hc hend]
  rw [fieldWidth_extension] at hend ⊢
  obtain ⟨-, hstart⟩ := contentStart_mod (p + 6) (safetyFields v)
  set k := (fieldWidth (safetyFields v) + 7) / 8 with hk
  have hcode : u32 ((k : Int) - 1) = k - 1 := (u32_pred (k := 32) (by omega) (by omega) le_rfl).1
  have hbytes : contentStart (p + 6) (safetyFields v) / 8 + u32 ((k : Int) - 1) ≤ last := by
    rw [hcode]
    omega
  have hneed : 8 - (p + 6) % 8 ≤ 8 ∧ (p + 6 + 8) / 8 ≤ last := by omega
  have hread := reads_openType
    (fun n => needBytes (u32 (n - 1)) >>= fun _ => readSafetyContent old) hopen (by omega)
    (parses_need hbytes (parses_safetyContent old h hlaid)) (carries_openType hopen).2 saved
  rw [← Reader.eval_needBits (by decide) (.inl hneed.1) hneed.2 (f := fun _ => _)] at hread
  exact hread

/-- The special extension ends where it should, unless the bit for the trailer data is taken from
behind it. -/
theorem reads_specialExtension (old : BsmValue) {v : BsmValue} (h : v.SpecialInWidth)
    (hp : p % 8 = 0 ∨ p % 8 = 6) (hc : Carries m p (extensionFields 1 (specialFields v)))
    (hend : (p + fieldWidth (extensionFields 1 (specialFields v))) / 8 ≤ last) :
    Reads m last (readExtension old) p fun a q =>
      ((v.specvehopts &&& 0x1 ≠ 0 → fieldWidth (specialFields v) % 8 ≠ 0) →
        q = p + fieldWidth (extensionFields 1 (specialFields v))) ∧
      (v.SpecialAgrees a ↔ v.SpecialExact) ∧ a.safetyPart = old.safetyPart ∧
        a.qtyPartIIExtensions = old.qtyPartIIExtensions := by
  have hnarrow := (narrow_special v fun hc hd => ((h.description hc).sizeDesc hd).2).le
  have hpos : 4 ≤ fieldWidth (specialFields v) := by
    rw [specialFields, fieldWidth_append]
    exact Nat.le_add_right 4 _
  have hopen := (hc.field_eq (by decide)).2
  intro saved
  rw [eval_extension old (by decide) (by omega) hc hend]
  rw [fieldWidth_extension] at hend ⊢
  obtain ⟨hmod, hstart⟩ := contentStart_mod (p + 6) (specialFields v)
  have hcontent := (carries_openType hopen).2
  set s := contentStart (p + 6) (specialFields v) with hs
  have htrailer : Carries m (s + fieldWidth (specialFields v)) (trailerBit m s v) := by
    unfold trailerBit
    split
    · exact carries_field _ _ _
    · rfl
  have hwidth : fieldWidth (trailerBit m s v) = if v.specvehopts &&& 0x1 ≠ 0 then 1 else 0 := by
    unfold trailerBit
    split <;> rfl
  have hneed : 8 - (s + 1) % 8 ≤ 3 ∧ (s + 1 + 3) / 8 ≤ last := by omega
  obtain ⟨a, q, saved', ha, hq, hQ⟩ :=
    reads_openType (fun _ => readSpecialContent old) hopen (by omega)
      (parses_specialContent old h hneed.1 hneed.2)
      (carries_append.mpr ⟨hcontent, htrailer⟩) saved
  refine ⟨a, q, saved', ha, fun hfit => ?_, hQ⟩
  rw [hq, fieldWidth_append, hwidth]
  split
  · have := hfit ‹_›
    omega
  · rfl

theorem vehicleDataStart_eq (v : BsmValue) : vehicleDataStart v = 11 ∨ vehicleDataStart v = 19 := by
  unfold vehicleDataStart
  split
  · exact .inr rfl
  · exact .inl rfl

theorem reads_supplementalExtension (old : BsmValue) {v : BsmValue} (h : v.SupplementalInWidth)
    (hp : p % 8 = 0 ∨ p % 8 = 6 ∨ p % 8 = 4)
    (hguard : p % 8 = 0 → v.suppvehopts &&& 0x80 ≠ 0 →
      vehicleDataStart v + 5 < fieldWidth (supplementalFields v))
    (hc : Carries m p (extensionFields 2 (supplementalFields v)))
    (hend : (p + fieldWidth (extensionFields 2 (supplementalFields v))) / 8 ≤ last) :
    Reads m last (readExtension old) p fun a _ =>
      (v.SupplementalAgrees a ↔ v.SupplementalExact) ∧ a.safetyPart = old.safetyPart ∧
        a.specialPart = old.specialPart ∧ a.qtyPartIIExtensions = old.qtyPartIIExtensions := by
  have hnarrow := (narrow_supplemental h.supported).le
  have hopen := (hc.field_eq (by decide)).2
  intro saved
  rw [eval_extension old (by decide) (by omega) hc hend]
  rw [fieldWidth_extension] at hend
  obtain ⟨hmod, hstart⟩ := contentStart_mod (p + 6) (supplementalFields v)
  have hvehicle := vehicleDataStart_eq v
  have hguard' : v.suppvehopts &&& 0x80 ≠ 0 →
      8 - (contentStart (p + 6) (supplementalFields v) + 11) % 8 ≤ 5 ∨
        (contentStart (p + 6) (supplementalFields v) + vehicleDataStart v) / 8 < last := by
    intro hveh
    by_cases h₀ : p % 8 = 0
    · have := hguard h₀ hveh
      omega
    · omega
  obtain ⟨a, q, saved', ha, -, hQ⟩ :=
    reads_openType (fun _ => readSupplementalContent old) hopen (by omega)
      (parses_supplementalContent old h hguard' (by omega) (by omega))
      (carries_openType hopen).2 saved
  exact ⟨a, q, saved', ha, hQ⟩

/-! ## Part II -/

/-- An extension that is there or not, and the rounds behind it. -/
theorem reads_extensions {c : Bool} {n : Nat} {old : BsmValue} {Q R : BsmValue → Nat → Prop}
    (hstep : c = true → Reads m last (readExtension old) p Q)
    (hrest : ∀ a q, (c = true → Q a q) → (c = false → a = old ∧ q = p) →
      Reads m last (readExtensions n a) q R) :
    Reads m last (readExtensions (c.toNat + n) old) p R := by
  cases c with
  | false =>
    rw [Bool.toNat_false, Nat.zero_add]
    exact hrest old p nofun fun _ => ⟨rfl, rfl⟩
  | true =>
    rw [Bool.toNat_true, Nat.add_comm]
    exact (hstep rfl).bind fun a q hQ => hrest a q (fun _ => hQ) nofun

theorem BsmValue.SafetyAgrees.congr {v a b : BsmValue} (h : a.safetyPart = b.safetyPart)
    (hagrees : v.SafetyAgrees a) : v.SafetyAgrees b := by
  simp only [safetyPart, Prod.mk.injEq] at h
  obtain ⟨h₁, h₂, h₃, h₄, h₅, h₆, h₇⟩ := h
  obtain ⟨g₁, g₂, g₃, g₄, g₅, g₆⟩ := hagrees
  rw [h₁] at g₁
  rw [h₂] at g₂
  rw [h₃] at g₃
  rw [h₄, h₅] at g₄
  rw [h₆] at g₅
  rw [h₇] at g₆
  exact ⟨g₁, g₂, g₃, g₄, g₅, g₆⟩

theorem BsmValue.SpecialAgrees.congr {v a b : BsmValue} (h : a.specialPart = b.specialPart)
    (hagrees : v.SpecialAgrees a) : v.SpecialAgrees b := by
  simp only [specialPart, Prod.mk.injEq] at h
  obtain ⟨h₁, h₂, h₃, h₄, h₅, h₆⟩ := h
  obtain ⟨g₁, g₂, g₃, g₄⟩ := hagrees
  rw [h₁] at g₁
  rw [h₂] at g₂
  rw [h₃, h₄] at g₃
  rw [h₅, h₆] at g₄
  exact ⟨g₁, g₂, g₃, g₄⟩

/-- A value with Part II: its number of extensions is that of the extensions it has, and the fields
of these are inside their widths. Of the core only the first word matters to Part II. -/
structure BsmValue.InWidth (v : BsmValue) : Prop where
  msgCount : v.core.msgCount < 2 ^ 7
  id : v.core.id < 2 ^ 32
  hasPartII : v.hasPartII = true
  nonempty : 1 ≤ v.qtyPartIIExtensions
  count : v.qtyPartIIExtensions = v.hasSafetyExtension.toNat +
    (v.hasSpecialExtension.toNat + (v.hasSupplementalExtension.toNat + 0))
  safety : v.hasSafetyExtension = true → v.SafetyInWidth
  special : v.hasSpecialExtension = true → v.SpecialInWidth
  supplemental : v.hasSupplementalExtension = true → v.SupplementalInWidth

/-- `a` has the extensions of `v`, and their selected fields. -/
structure BsmValue.PartIIAgrees (v a : BsmValue) : Prop where
  qtyPartIIExtensions : a.qtyPartIIExtensions = v.qtyPartIIExtensions
  safety : v.hasSafetyExtension = true → v.SafetyAgrees a
  special : v.hasSpecialExtension = true → v.SpecialAgrees a
  supplemental : v.hasSupplementalExtension = true → v.SupplementalAgrees a

/-- Nothing is lost in the fields that are written: no crumb heading in the place of the code for
an unavailable one, a path that is straight if its radius says so, one set of rights, and a mass on
the scale. -/
structure BsmValue.PartIIExact (v : BsmValue) : Prop where
  safety : v.hasSafetyExtension = true → v.SafetyExact
  special : v.hasSpecialExtension = true → v.SpecialExact
  supplemental : v.hasSupplementalExtension = true → v.SupplementalExact

/-- The decoder finds the fields where they are: no heading or speed in an initial position, and
no trailer data at the end of the last octet of a special extension that another one follows. -/
structure BsmValue.PartIILaid (v : BsmValue) : Prop where
  safety : v.hasSafetyExtension = true → v.SafetyLaid
  trailer : v.hasSpecialExtension = true → v.hasSupplementalExtension = true →
    v.specvehopts &&& 0x1 ≠ 0 → fieldWidth (specialFields v) % 8 ≠ 0

/-- In a message without other extensions the vehicle data have a field of their own, or a weather
probe behind them: the check in front of their options takes an end inside the last octet for a
message that is too short. -/
def BsmValue.VehicleDataPassed (v : BsmValue) : Prop :=
  v.hasSafetyExtension = false → v.hasSpecialExtension = false →
    v.hasSupplementalExtension = true → v.suppvehopts &&& 0x80 ≠ 0 →
    v.veh.opts ≠ 0 ∨ v.suppvehopts &&& 0x20 ≠ 0

theorem lt_fieldWidth_vehicleData {v : VehicleData} (h : v.opts < 2 ^ 4) (h₀ : v.opts ≠ 0) :
    5 < fieldWidth (vehicleDataFields v) := by
  have hopts : ∀ n < 2 ^ 4, n ≠ 0 →
      0 < (if n &&& 0x8 ≠ 0 then 7 else 0) + ((if n &&& 0x4 ≠ 0 then 14 else 0) +
        ((if n &&& 0x2 ≠ 0 then 8 else 0) + (if n &&& 0x1 ≠ 0 then 16 else 0))) := by
    decide
  have hlt := hopts v.opts h h₀
  simp only [vehicleDataFields, fieldWidth_append, fieldWidth_cons, fieldWidth_nil,
    apply_ite fieldWidth, Nat.add_zero, Nat.reduceAdd]
  omega

theorem vehicleDataStart_lt {v : BsmValue} (h : v.SupplementalInWidth)
    (hc : v.suppvehopts &&& 0x80 ≠ 0) (hmore : v.veh.opts ≠ 0 ∨ v.suppvehopts &&& 0x20 ≠ 0) :
    vehicleDataStart v + 5 < fieldWidth (supplementalFields v) := by
  have hveh : 5 ≤ fieldWidth (vehicleDataFields v.veh) := by
    rw [vehicleDataFields, fieldWidth_append]
    exact Nat.le_add_right 5 _
  have hweather : 4 ≤ fieldWidth (weatherProbeFields v.weather) := by
    rw [weatherProbeFields, fieldWidth_append]
    exact Nat.le_add_right 4 _
  rw [supplementalFields_eq h.supported, vehicleDataStart, if_pos hc]
  simp only [fieldWidth_append, fieldWidth_cons, fieldWidth_nil, apply_ite fieldWidth]
  rcases hmore with hopts | hprobe
  · have hlt := lt_fieldWidth_vehicleData (h.veh hc).opts hopts
    split_ifs <;> omega
  · rw [if_pos hprobe]
    split_ifs <;> omega

theorem le_fieldWidth_extension (id : Nat) (fields : List Field) :
    14 ≤ fieldWidth (extensionFields id fields) := by
  have hwidth := fieldWidth_extension 0 id fields
  have hstart := (contentStart_mod (0 + 6) fields).2
  omega

/-- The supplemental extension starts an octet only if it is the first one. -/
theorem supplemental_position {c₁ c₂ : Bool} {w : Nat} (hp : p % 8 = if c₁ then 6 else 0)
    (hw : w % 8 = if c₂ then 6 else 0) :
    (p + w) % 8 = 0 ∧ c₁ = false ∧ c₂ = false ∨ (p + w) % 8 = 6 ∨ (p + w) % 8 = 4 := by
  cases c₁ <;> cases c₂ <;>
    simp only [Bool.false_eq_true, if_true, if_false, true_and, and_true] at hp hw ⊢ <;> omega

section extensions

variable (old : BsmValue) {v : BsmValue}

/-- The rounds from the supplemental extension on. -/
theorem reads_fromSupplemental (h : v.InWidth) (hpassed : v.VehicleDataPassed)
    (hat : v.hasSupplementalExtension = true →
      (p % 8 = 0 ∧ v.hasSafetyExtension = false ∧ v.hasSpecialExtension = false ∨ p % 8 = 6 ∨
        p % 8 = 4) ∧
      Carries m p (extensionFields 2 (supplementalFields v)) ∧
      (p + fieldWidth (extensionFields 2 (supplementalFields v))) / 8 ≤ last) :
    Reads m last (readExtensions (v.hasSupplementalExtension.toNat + 0) old) p fun a _ =>
      (v.hasSupplementalExtension = true → (v.SupplementalAgrees a ↔ v.SupplementalExact)) ∧
        a.safetyPart = old.safetyPart ∧ a.specialPart = old.specialPart ∧
        a.qtyPartIIExtensions = old.qtyPartIIExtensions := by
  refine reads_extensions (Q := fun a _ => (v.SupplementalAgrees a ↔ v.SupplementalExact) ∧
    a.safetyPart = old.safetyPart ∧ a.specialPart = old.specialPart ∧
    a.qtyPartIIExtensions = old.qtyPartIIExtensions) (fun hflag => ?_) fun a q hthere hnot => ?_
  · obtain ⟨hp, hc, hend⟩ := hat hflag
    have hwidth := h.supplemental hflag
    refine reads_supplementalExtension old hwidth (by omega) (fun h₀ hveh => ?_) hc hend
    obtain ⟨-, h₁, h₂⟩ : p % 8 = 0 ∧ v.hasSafetyExtension = false ∧ v.hasSpecialExtension = false :=
      hp.resolve_right (by omega)
    exact vehicleDataStart_lt hwidth hveh (hpassed h₁ h₂ hflag hveh)
  · refine reads_pure ⟨fun hflag => (hthere hflag).1, ?_⟩
    cases hflag : v.hasSupplementalExtension with
    | true => exact (hthere hflag).2
    | false =>
      rw [(hnot hflag).1]
      exact ⟨rfl, rfl, rfl⟩

/-- The rounds from the special extension on. -/
theorem reads_fromSpecial (h : v.InWidth) (hlaid : v.PartIILaid) (hpassed : v.VehicleDataPassed)
    (hp : p % 8 = if v.hasSafetyExtension then 6 else 0)
    (hc : Carries m p
      ((if v.hasSpecialExtension then extensionFields 1 (specialFields v) else []) ++
        (if v.hasSupplementalExtension then extensionFields 2 (supplementalFields v) else [])))
    (hend : (p + fieldWidth
      ((if v.hasSpecialExtension then extensionFields 1 (specialFields v) else []) ++
        (if v.hasSupplementalExtension then extensionFields 2 (supplementalFields v) else []))) / 8 ≤
      last) :
    Reads m last (readExtensions
        (v.hasSpecialExtension.toNat + (v.hasSupplementalExtension.toNat + 0)) old) p fun a _ =>
      (v.hasSpecialExtension = true → (v.SpecialAgrees a ↔ v.SpecialExact)) ∧
        (v.hasSupplementalExtension = true → (v.SupplementalAgrees a ↔ v.SupplementalExact)) ∧
        a.safetyPart = old.safetyPart ∧ a.qtyPartIIExtensions = old.qtyPartIIExtensions := by
  obtain ⟨hc₂, hc₃⟩ := carries_append.mp hc
  rw [fieldWidth_append] at hend
  have hp' : p % 8 = 0 ∨ p % 8 = 6 := by split at hp <;> omega
  have hmod := width_extension_mod v.hasSpecialExtension 1 (specialFields v)
  refine reads_extensions (fun hflag => reads_specialExtension old (h.special hflag) hp'
    (by rwa [if_pos hflag] at hc₂) (by rw [if_pos hflag] at hend; omega)) fun a q hthere hnot => ?_
  -- where the supplemental extension is looked for
  have hq : v.hasSupplementalExtension = true → q = p + fieldWidth
      (if v.hasSpecialExtension then extensionFields 1 (specialFields v) else []) := by
    intro hsupp
    cases hflag : v.hasSpecialExtension with
    | true => exact (hthere hflag).1 (hlaid.trailer hflag hsupp)
    | false => exact (hnot hflag).2
  have hkeep : a.safetyPart = old.safetyPart ∧ a.qtyPartIIExtensions = old.qtyPartIIExtensions := by
    cases hflag : v.hasSpecialExtension with
    | true => exact (hthere hflag).2.2
    | false =>
      rw [(hnot hflag).1]
      exact ⟨rfl, rfl⟩
  have hpos := supplemental_position hp hmod
  have hrest : Reads m last (readExtensions (v.hasSupplementalExtension.toNat + 0) a) q _ :=
    reads_fromSupplemental a h hpassed fun hsupp => by
      rw [hq hsupp]
      rw [if_pos hsupp] at hc₃ hend
      exact ⟨hpos, hc₃, by omega⟩
  intro saved
  obtain ⟨b, r, saved', hb, hsupp, hsafe, hspec, hqty⟩ := hrest saved
  refine ⟨b, r, saved', hb, fun hflag => ?_, hsupp, hsafe.trans hkeep.1, hqty.trans hkeep.2⟩
  rw [← (hthere hflag).2.1]
  exact ⟨.congr hspec, .congr hspec.symm⟩

/-- All rounds. -/
theorem reads_fromSafety (h : v.InWidth) (hlaid : v.PartIILaid) (hpassed : v.VehicleDataPassed)
    (hp : p % 8 = 0)
    (hc : Carries m p
      ((if v.hasSafetyExtension then extensionFields 0 (safetyFields v) else []) ++
        ((if v.hasSpecialExtension then extensionFields 1 (specialFields v) else []) ++
          (if v.hasSupplementalExtension then extensionFields 2 (supplementalFields v) else []))))
    (hend : (p + fieldWidth
      ((if v.hasSafetyExtension then extensionFields 0 (safetyFields v) else []) ++
        ((if v.hasSpecialExtension then extensionFields 1 (specialFields v) else []) ++
          (if v.hasSupplementalExtension then extensionFields 2 (supplementalFields v) else [])))) /
      8 ≤ last) :
    Reads m last (readExtensions v.qtyPartIIExtensions old) p fun a _ =>
      (v.hasSafetyExtension = true → (v.SafetyAgrees a ↔ v.SafetyExact)) ∧
        (v.hasSpecialExtension = true → (v.SpecialAgrees a ↔ v.SpecialExact)) ∧
        (v.hasSupplementalExtension = true → (v.SupplementalAgrees a ↔ v.SupplementalExact)) ∧
        a.qtyPartIIExtensions = old.qtyPartIIExtensions := by
  obtain ⟨hc₁, hc₂⟩ := carries_append.mp hc
  rw [fieldWidth_append] at hend
  have hmod := width_extension_mod v.hasSafetyExtension 0 (safetyFields v)
  rw [h.count]
  refine reads_extensions (fun hflag => reads_safetyExtension old (h.safety hflag)
    (hlaid.safety hflag) (by omega) (by rwa [if_pos hflag] at hc₁)
    (by rw [if_pos hflag] at hend; omega)) fun a q hthere hnot => ?_
  have hq : q = p + fieldWidth
      (if v.hasSafetyExtension then extensionFields 0 (safetyFields v) else []) := by
    cases hflag : v.hasSafetyExtension with
    | true => exact (hthere hflag).1
    | false => exact (hnot hflag).2
  have hqty₁ : a.qtyPartIIExtensions = old.qtyPartIIExtensions := by
    cases hflag : v.hasSafetyExtension with
    | true => exact (hthere hflag).2.2
    | false => rw [(hnot hflag).1]
  have hrest : Reads m last (readExtensions
      (v.hasSpecialExtension.toNat + (v.hasSupplementalExtension.toNat + 0)) a) q _ :=
    reads_fromSpecial a h hlaid hpassed (by rw [hq, ← hmod]; omega) (by rwa [hq])
      (by rw [hq]; omega)
  intro saved
  obtain ⟨b, r, saved', hb, hspec, hsupp, hsafe, hqty⟩ := hrest saved
  refine ⟨b, r, saved', hb, fun hflag => ?_, hspec, hsupp, hqty.trans hqty₁⟩
  rw [← (hthere hflag).2.1]
  exact ⟨.congr hsafe, .congr hsafe.symm⟩

end extensions

theorem BsmValue.InWidth.qty_le {v : BsmValue} (h : v.InWidth) : v.qtyPartIIExtensions ≤ 3 := by
  have h₁ := Bool.toNat_le v.hasSafetyExtension
  have h₂ := Bool.toNat_le v.hasSpecialExtension
  have h₃ := Bool.toNat_le v.hasSupplementalExtension
  have hcount := h.count
  omega

/-- One extension at least, which is longer than an octet. -/
theorem BsmValue.InWidth.lt_fieldWidth {v : BsmValue} (h : v.InWidth) :
    8 < fieldWidth ((if v.hasSafetyExtension then extensionFields 0 (safetyFields v) else []) ++
      ((if v.hasSpecialExtension then extensionFields 1 (specialFields v) else []) ++
        (if v.hasSupplementalExtension then extensionFields 2 (supplementalFields v) else []))) := by
  have hcount := h.count
  have hpos := h.nonempty
  have h₁ := le_fieldWidth_extension 0 (safetyFields v)
  have h₂ := le_fieldWidth_extension 1 (specialFields v)
  have h₃ := le_fieldWidth_extension 2 (supplementalFields v)
  rw [fieldWidth_append, fieldWidth_append]
  cases hflag₁ : v.hasSafetyExtension with
  | true =>
    simp only [if_true]
    omega
  | false =>
    cases hflag₂ : v.hasSpecialExtension with
    | true =>
      simp only [if_true]
      omega
    | false =>
      cases hflag₃ : v.hasSupplementalExtension with
      | true =>
        simp only [if_true]
        omega
      | false => simp [hflag₁, hflag₂, hflag₃] at hcount; omega

/-- Part II, up to its first extension. -/
theorem eval_partII {saved : Nat} (old : BsmValue) {v : BsmValue} (h : v.InWidth) (hp : p % 8 = 5)
    (hc : Carries m p (partIIFields v)) (hend : (p + fieldWidth (partIIFields v)) / 8 ≤ last) :
    (readPartII old).eval m last p saved =
      (readExtensions v.qtyPartIIExtensions
        { old with qtyPartIIExtensions := v.qtyPartIIExtensions }).eval m last (p + 3) saved := by
  have hle := h.qty_le
  have hwidth := h.lt_fieldWidth
  obtain ⟨hcode, hlt⟩ := u32_pred (k := 3) h.nonempty (by omega) (by decide)
  rw [partIIFields, hcode] at hc hend
  rw [fieldWidth_cons, ← Nat.add_assoc] at hend
  dsimp only at hend
  have hneed : p / 8 < last ∧ (p + 3) / 8 + 1 ≤ last := by omega
  unfold readPartII
  rw [Reader.eval_needBits (by decide) (.inr hneed.1) (by omega), eval_bits (hc.field_eq hlt).1,
    needBytes, eval_need hneed.2, Nat.sub_add_cancel h.nonempty]

theorem reads_partII (old : BsmValue) {v : BsmValue} (h : v.InWidth) (hlaid : v.PartIILaid)
    (hpassed : v.VehicleDataPassed) (hp : p % 8 = 5) (hc : Carries m p (partIIFields v))
    (hend : (p + fieldWidth (partIIFields v)) / 8 ≤ last) :
    Reads m last (readPartII old) p fun a _ => v.PartIIAgrees a ↔ v.PartIIExact := by
  intro saved
  rw [eval_partII old h hp hc hend]
  rw [partIIFields, fieldWidth_cons, ← Nat.add_assoc] at hend
  have hextensions := hc.tail
  have hp₃ : (p + 3) % 8 = 0 := by omega
  obtain ⟨a, q, saved', ha, hsafe, hspec, hsupp, hqty⟩ :=
    reads_fromSafety { old with qtyPartIIExtensions := v.qtyPartIIExtensions } h hlaid hpassed
      hp₃ hextensions hend saved
  refine ⟨a, q, saved', ha, ?_⟩
  constructor
  · rintro ⟨-, h₁, h₂, h₃⟩
    exact ⟨fun hflag => (hsafe hflag).mp (h₁ hflag), fun hflag => (hspec hflag).mp (h₂ hflag),
      fun hflag => (hsupp hflag).mp (h₃ hflag)⟩
  · rintro ⟨h₁, h₂, h₃⟩
    exact ⟨hqty, fun hflag => (hsafe hflag).mpr (h₁ hflag),
      fun hflag => (hspec hflag).mpr (h₂ hflag), fun hflag => (hsupp hflag).mpr (h₃ hflag)⟩

/-- A content that ends with the options of the vehicle data is refused at the end of a message. -/
theorem eval_supplementalContent_short (saved : Nat) (old : BsmValue) {v : BsmValue}
    (h : v.SupplementalInWidth) (hveh : v.suppvehopts &&& 0x80 ≠ 0) (hp : p % 8 = 6)
    (hlast : last = (p + vehicleDataStart v + 5) / 8) (hc : Carries m p (supplementalFields v)) :
    (readSupplementalContent old).eval m last p saved = none := by
  have hstart := vehicleDataStart_eq v
  have h₁ : v.suppvehopts &&& 0x100 = 0 := and_eq_zero_of_subset h.supported rfl
  rw [supplementalFields_eq h.supported, List.cons_append, List.cons_append, List.nil_append] at hc
  obtain ⟨hextended, hc⟩ := hc.field_eq (by decide)
  obtain ⟨hopts, hc⟩ := hc.field_eq h.opts
  have hread : Parses m last
      (optional (v.suppvehopts &&& 0x200 ≠ 0) old.vehicleClass (bits 8)) (p + 1 + 10) _ _ :=
    parses_optional fun _ => parses_field h.vehicleClass
  obtain ⟨vehicleClass, hclass, -⟩ := hread (carries_append.mp hc).1 saved
  have hskip : optional (v.suppvehopts &&& 0x100 ≠ 0) () stop = done () := if_neg (not_not.mpr h₁)
  have hhere : optional (v.suppvehopts &&& 0x80 ≠ 0) old.veh (readVehicleData old.veh) =
      readVehicleData old.veh := if_pos hveh
  have hshort : last < (p + vehicleDataStart v) / 8 +
      calcBytesNeededForNMoreBits 5 (8 - (p + vehicleDataStart v) % 8) := by
    unfold calcBytesNeededForNMoreBits
    omega
  have hwidth : p + 1 + 10 + fieldWidth
      (if v.suppvehopts &&& 0x200 ≠ 0 then [⟨8, v.vehicleClass⟩] else []) =
      p + vehicleDataStart v := by
    unfold vehicleDataStart
    split <;> rfl
  unfold readSupplementalContent unsupported
  rw [Reader.eval_needBits (by decide) (by omega) (by omega), eval_bits hextended, eval_bits hopts,
    eval_bind, hclass, hwidth, Option.bind_some]
  dsimp only
  rw [hskip, hhere]
  change (readVehicleData old.veh >>= _).eval m last (p + vehicleDataStart v) saved = none
  rw [eval_bind, readVehicleData, needBits, eval_need_short hshort]
  rfl

theorem fieldWidth_supplemental_short {v : BsmValue} (h : v.SupplementalInWidth)
    (hveh : v.suppvehopts &&& 0x80 ≠ 0) (hopts : v.veh.opts = 0)
    (hprobe : v.suppvehopts &&& 0x20 = 0) :
    fieldWidth (supplementalFields v) = vehicleDataStart v + 5 := by
  have hbits : ∀ n : Nat, 0 &&& n = 0 := Nat.zero_and
  rw [supplementalFields_eq h.supported, if_pos hveh, if_neg (not_not.mpr hprobe),
    vehicleDataFields, hopts, vehicleDataStart]
  simp only [hbits, ne_eq, not_true_eq_false, if_false]
  split <;> rfl

theorem eval_supplementalExtension_short {saved : Nat} (old : BsmValue) {v : BsmValue}
    (h : v.SupplementalInWidth) (hveh : v.suppvehopts &&& 0x80 ≠ 0) (hopts : v.veh.opts = 0)
    (hprobe : v.suppvehopts &&& 0x20 = 0) (hp : p % 8 = 0)
    (hc : Carries m p (extensionFields 2 (supplementalFields v)))
    (hlast : last = (p + fieldWidth (extensionFields 2 (supplementalFields v))) / 8) :
    (readExtension old).eval m last p saved = none := by
  have hstart := vehicleDataStart_eq v
  have hwidth := fieldWidth_supplemental_short h hveh hopts hprobe
  have hopen := hc.tail
  rw [eval_extension old (by decide) (by omega) hc hlast.ge]
  rw [fieldWidth_extension] at hlast
  obtain ⟨hmod, -⟩ := contentStart_mod (p + 6) (supplementalFields v)
  set s := contentStart (p + 6) (supplementalFields v) with hs
  have hshort := eval_supplementalContent_short (8 - s % 8) old h hveh (by omega)
    (show last = (s + vehicleDataStart v + 5) / 8 by omega) (carries_openType hopen).2
  refine (eval_openType (fun _ => readSupplementalContent old) _ hopen (by omega)).trans ?_
  rw [eval_bind, hshort]
  rfl

/-- Vehicle data that do not pass their check at the end of the message. -/
theorem eval_partII_short {saved : Nat} (old : BsmValue) {v : BsmValue} (h : v.InWidth)
    (hpassed : ¬ v.VehicleDataPassed) (hp : p % 8 = 5) (hc : Carries m p (partIIFields v))
    (hlast : last = (p + fieldWidth (partIIFields v)) / 8) :
    (readPartII old).eval m last p saved = none := by
  unfold BsmValue.VehicleDataPassed at hpassed
  push Not at hpassed
  obtain ⟨h₁, h₂, h₃, hveh, hopts, hprobe⟩ := hpassed
  have hqty : v.qtyPartIIExtensions = 1 := by
    rw [h.count, h₁, h₂, h₃]
    rfl
  rw [eval_partII old h hp hc hlast.ge, hqty]
  simp only [partIIFields, h₁, h₂, h₃, Bool.false_eq_true, if_true, if_false, List.nil_append] at hc hlast
  rw [fieldWidth_cons, ← Nat.add_assoc] at hlast
  change (readExtension _ >>= readExtensions 0).eval m last (p + 3) saved = none
  rw [eval_bind, eval_supplementalExtension_short _ (h.supplemental h₃) hveh hopts hprobe (by omega)
    hc.tail hlast]
  rfl

/-! ## The message -/

theorem wordOctets_lt {w o : Nat} (h : o ∈ wordOctets w) : o < 256 := by
  simp only [wordOctets, List.mem_cons, List.not_mem_nil, or_false] at h
  omega

/-- `ntohl` behind `htonl`. -/
theorem word_of_holds {w : Nat} (h : m.Holds p (wordOctets w)) : word m p = w % 2 ^ 32 := by
  obtain ⟨h₀, h₁, h₂, h₃, -⟩ := h
  have hlt : ∀ x, x % 256 < 2 ^ 8 := fun x => Nat.mod_lt x (by decide)
  rw [word, h₀, h₁, h₂, h₃]
  rw [← Nat.shiftLeft_add_eq_or_of_lt (hlt _), ← Nat.shiftLeft_add_eq_or_of_lt (hlt _),
    ← Nat.shiftLeft_add_eq_or_of_lt (hlt _)]
  simp only [Nat.shiftLeft_eq, Nat.shiftRight_eq_div_pow]
  omega

/-- The first word of a message with Part II. -/
theorem word_core {v : BsmValue} (hII : v.hasPartII = true)
    (hc : m.bits (8 * p) 293 = coreBits v) :
    word m p = (0x40000000 ||| v.core.msgCount <<< 22 ||| v.core.id >>> 10) % 2 ^ 32 := by
  have hbits := hc
  rw [show 293 = 32 + 261 from rfl, Mem.bits_add, coreBits, coreWords] at hbits
  simp only [List.map_cons, List.flatMap_cons, octetBits_append, List.append_assoc] at hbits
  have hfst := (List.append_inj hbits (by simp [wordOctets])).1
  have hholds := Mem.holds_of_bits (fun o ho => wordOctets_lt ho) hfst
  rw [word_of_holds hholds, hII, if_pos rfl, Nat.mod_mod]

theorem core_flags {v : BsmValue} (h : v.InWidth) (hc : m.bits (8 * p) 293 = coreBits v) :
    ¬ isExtended m p ∧ announcesPartII m p := by
  have hcount : v.core.msgCount.testBit 9 = false :=
    Nat.testBit_lt_two_pow (h.msgCount.trans (by decide))
  have hid : v.core.id.testBit 41 = false := Nat.testBit_lt_two_pow (h.id.trans (by decide))
  unfold isExtended announcesPartII
  rw [word_core h.hasPartII hc]
  constructor
  · rw [show 0x80000000 = 2 ^ 31 from rfl, Nat.and_two_pow, Nat.testBit_mod_two_pow, Nat.testBit_or,
      Nat.testBit_or, Nat.testBit_shiftLeft, Nat.testBit_shiftRight, hid, hcount]
    decide
  · rw [show 0x40000000 = 2 ^ 30 from rfl, Nat.and_two_pow, Nat.testBit_mod_two_pow, Nat.testBit_or,
      Nat.testBit_or, Nat.testBit_two_pow_self, Bool.true_or, Bool.true_or]
    decide

/-- What `encode_as_bsm` writes, decoded behind its id and length: both return 0, and `BSM_p` has
the Part II of `v`. -/
def RecoversPartII (extHead : Nat) (bp : Abuf) (v old : BsmValue) : Prop :=
  let encoded := encodeAsBsm extHead bp v
  let content := messageContent encoded.2
  let decoded := decodeAsBsm encoded.2.mem content.2.cp content.1.toNat old
  encoded.1 = 0 ∧ decoded.result = 0 ∧ ∃ a, decoded.value = some a ∧ v.PartIIAgrees a

theorem decodeAsBsm_of_partII {len : Nat} (old : BsmValue) (hlen : 31 ≤ len)
    (hflags : ¬ isExtended m p ∧ announcesPartII m p) :
    ((decodeAsBsm m p len old).result, (decodeAsBsm m p len old).value) =
      match (readPartII (withCore m p len old)).eval m (p + len - 1) (8 * p + 293) 8 with
      | some (a, _, _) => (0, some a)
      | none => (-1, none) := by
  have hc : (⟨p + 36, 3⟩ : Cursor).Valid := ⟨by simp, by simp⟩
  have hpos : (⟨p + 36, 3⟩ : Cursor).pos = 8 * p + 293 := by
    simp only [Cursor.pos]
    omega
  have hexec := exec_result m (p + len - 1) (readPartII (withCore m p len old)) hc
    (show 0 < 8 ∧ 8 ≤ 8 by decide)
  rw [hpos] at hexec
  have hII : (withCore m p len old).hasPartII = true := by simpa [withCore] using hflags.2
  unfold decodeAsBsm
  rw [if_neg (by omega), if_neg hflags.1]
  simp only [hII, if_true, hexec]
  cases (readPartII (withCore m p len old)).eval m (p + len - 1) (8 * p + 293) 8 with
  | none => rfl
  | some r => rfl

theorem BsmValue.InWidth.encodable {v : BsmValue} (h : v.InWidth) : Encodable v where
  crumbs := fun hflag hph => ((h.safety hflag).ph hph).qtyCrumbs.2
  desc := fun hflag hdesc hopt => (((h.special hflag).description hdesc).sizeDesc hopt).2
  supported := fun hflag => (h.supplemental hflag).supported

/-- Each extension leaves two bits less of its last octet than the one in front of it. -/
theorem fieldWidth_partII_mod {v : BsmValue} (h : v.InWidth) :
    (293 + fieldWidth (partIIFields v)) % 8 ≠ 0 := by
  have hmod₁ := width_extension_mod v.hasSafetyExtension 0 (safetyFields v)
  have hmod₂ := width_extension_mod v.hasSpecialExtension 1 (specialFields v)
  have hmod₃ := width_extension_mod v.hasSupplementalExtension 2 (supplementalFields v)
  have hbits : ∀ c : Bool, (if c then 6 else 0) = 6 * c.toNat := by decide
  rw [hbits] at hmod₁ hmod₂ hmod₃
  have hcount := h.count
  have hpos := h.nonempty
  have hle := h.qty_le
  rw [partIIFields, fieldWidth_cons, fieldWidth_append, fieldWidth_append]
  dsimp only
  omega

section recovery

variable {extHead : Nat} {bp : Abuf} {v : BsmValue} (old : BsmValue)

/-- What the decoder makes of an encoded message is what it makes of Part II. -/
theorem recoversPartII_iff_eval (hext : 0 < extHead) (h : v.InWidth)
    (hfresh : Fresh bp (293 + fieldWidth (partIIFields v))) :
    ∃ m last core, Carries m (8 * bp.data + 293) (partIIFields v) ∧
      last = (8 * bp.data + 293 + fieldWidth (partIIFields v)) / 8 ∧
      (RecoversPartII extHead bp v old ↔
        ∃ r, (readPartII core).eval m last (8 * bp.data + 293) 8 = some r ∧ v.PartIIAgrees r.1) := by
  obtain ⟨hres, hbits, hcontent⟩ := encodeAsBsm_spec hext h.hasPartII h.encodable hfresh
  set mem := (encodeAsBsm extHead bp v).2.mem with hmem
  have hmod := fieldWidth_partII_mod h
  set len := (293 + fieldWidth (partIIFields v) + 7) / 8 with hlen
  rw [Mem.bits_add] at hbits
  obtain ⟨hcore, hpartII⟩ := List.append_inj hbits (by simp [length_coreBits])
  have hdecoded := decodeAsBsm_of_partII old (show 31 ≤ len by omega) (core_flags h hcore)
  refine ⟨mem, bp.data + len - 1, withCore mem bp.data len old, hpartII, by omega, ?_⟩
  unfold RecoversPartII
  simp only [hres, hcontent, ← hmem, Int.toNat_natCast]
  cases heval : (readPartII (withCore mem bp.data len old)).eval mem (bp.data + len - 1)
      (8 * bp.data + 293) 8 with
  | none =>
    rw [heval] at hdecoded
    simp [(Prod.mk.inj hdecoded).1]
  | some r =>
    rw [heval] at hdecoded
    simp [(Prod.mk.inj hdecoded).1, (Prod.mk.inj hdecoded).2]

theorem recoversPartII_of_passed (hext : 0 < extHead) (h : v.InWidth) (hlaid : v.PartIILaid)
    (hpassed : v.VehicleDataPassed) (hfresh : Fresh bp (293 + fieldWidth (partIIFields v))) :
    RecoversPartII extHead bp v old ↔ v.PartIIExact := by
  obtain ⟨m, last, core, hc, hlast, hiff⟩ := recoversPartII_iff_eval old hext h hfresh
  obtain ⟨a, q, saved', ha, hagrees⟩ := reads_partII core h hlaid hpassed (by omega) hc hlast.ge 8
  rw [hiff, ← hagrees]
  constructor
  · rintro ⟨r, hr, hr'⟩
    obtain rfl := Option.some.inj (ha.symm.trans hr)
    exact hr'
  · exact fun hall => ⟨_, ha, hall⟩

theorem not_recoversPartII_of_not_passed (hext : 0 < extHead) (h : v.InWidth)
    (hpassed : ¬ v.VehicleDataPassed) (hfresh : Fresh bp (293 + fieldWidth (partIIFields v))) :
    ¬ RecoversPartII extHead bp v old := by
  obtain ⟨m, last, core, hc, hlast, hiff⟩ := recoversPartII_iff_eval old hext h hfresh
  rw [hiff, eval_partII_short core h hpassed (by omega) hc hlast]
  rintro ⟨r, hr, -⟩
  exact absurd hr nofun

/-- Part II comes back, where the decoder finds its fields, exactly when the encoder has lost
nothing and the decoder does not take the message for one that is too short. -/
theorem recoversPartII_iff (hext : 0 < extHead) (h : v.InWidth) (hlaid : v.PartIILaid)
    (hfresh : Fresh bp (293 + fieldWidth (partIIFields v))) :
    RecoversPartII extHead bp v old ↔ v.PartIIExact ∧ v.VehicleDataPassed := by
  by_cases hpassed : v.VehicleDataPassed
  · rw [recoversPartII_of_passed old hext h hlaid hpassed hfresh]
    exact (and_iff_left hpassed).symm
  · constructor
    · exact fun hrec => absurd hrec (not_recoversPartII_of_not_passed old hext h hpassed hfresh)
    · exact fun hall => absurd hall.2 hpassed

end recovery

/-- An abuf with room for any message. -/
def roomy : Abuf := ⟨fun _ => 0, 1, 1000, 0, 8, 40, 40, 1000, []⟩

theorem fresh_roomy {v : BsmValue} (h : v.InWidth) :
    Fresh roomy (293 + fieldWidth (partIIFields v)) := by
  have hle := fieldWidth_partII_le h.encodable
  exact ⟨by decide, by decide, rfl, rfl, rfl, by change 8 * 40 + _ ≤ 8 * 1000; omega⟩

/-- A message with privileged events in its emergency details. -/
def privileged (sspRights eventRights : Nat) : BsmValue :=
  { BsmValue.zero with
    hasPartII := true
    qtyPartIIExtensions := 1
    hasSpecialExtension := true
    specvehopts := 0x4
    edopts := 0x2
    vehicleAlerts := ⟨sspRights, 0, 0, 0, ⟨eventRights, 0⟩, 0⟩ }

theorem inWidth_privileged {r r' : Nat} (h : r < 2 ^ 5) (h' : r' < 2 ^ 5) :
    (privileged r r').InWidth where
  msgCount := Nat.two_pow_pos 7
  id := Nat.two_pow_pos 32
  hasPartII := rfl
  nonempty := le_rfl
  count := rfl
  safety := nofun
  special := fun _ =>
    { opts := show 4 < 2 ^ 3 by decide
      vehicleAlerts := fun _ =>
        ⟨show 2 < 2 ^ 2 by decide, h, Nat.two_pow_pos 2, Nat.two_pow_pos 3, Nat.two_pow_pos 2,
          ⟨h', Nat.two_pow_pos 16⟩, Nat.two_pow_pos 3⟩
      description := fun hc => (hc (show 4 &&& 2 = 0 by decide)).elim }
  supplemental := nofun

theorem laid_privileged (r r' : Nat) : (privileged r r').PartIILaid := ⟨nofun, nofun⟩

theorem recoversPartII_privileged : RecoversPartII 1 roomy (privileged 3 3) BsmValue.zero :=
  have hwidth := inWidth_privileged (r := 3) (by decide) (by decide)
  (recoversPartII_iff BsmValue.zero (by decide) hwidth (laid_privileged 3 3)
    (fresh_roomy hwidth)).mpr ⟨⟨nofun, fun _ _ _ => rfl, nofun⟩, nofun⟩

/-- The rights of the privileged events come back as those of the emergency details. -/
theorem not_recoversPartII_rights :
    (privileged 1 3).InWidth ∧ Fresh roomy (293 + fieldWidth (partIIFields (privileged 1 3))) ∧
      ¬ RecoversPartII 1 roomy (privileged 1 3) BsmValue.zero := by
  have hwidth : (privileged 1 3).InWidth := inWidth_privileged (by decide) (by decide)
  refine ⟨hwidth, fresh_roomy hwidth, fun hrec => ?_⟩
  have hexact := (recoversPartII_of_passed BsmValue.zero (by decide) hwidth (laid_privileged 1 3)
    nofun (fresh_roomy hwidth)).mp hrec
  exact absurd (hexact.special rfl (by decide) (by decide)) (by decide)

end SatComm.J2735
