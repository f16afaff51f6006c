import SatComm.Asnbuf.Extent
import SatComm.J2735.Bounds

/-!
# Where `decode_as_bsm` looks for the next extension

A Part II extension is an open type: the number of its octets, the content, and padding. The next
extension starts that many octets behind the length, whatever the content is. The decoder reads the
parts of the content that it knows, rounds the bits it took up to octets, and looks there; the
length is not used for it.

`contentBits` is the width of the known parts that the option bits of a content announce. The
decoder gets to the next extension exactly when that many bits fill the octets that the length
declares.
-/

namespace SatComm.J2735

open Bits Asnbuf Reader

/-! ## What the option bits announce -/

/-- A part of `w` bits that an option bit announces. -/
def optionBits (opts mask w : Nat) : Nat := if opts &&& mask ≠ 0 then w else 0

def dDateTimeBits (opts : Nat) : Nat :=
  7 + optionBits opts 0x40 12 + optionBits opts 0x20 4 + optionBits opts 0x10 5 +
    optionBits opts 0x8 5 + optionBits opts 0x4 6 + optionBits opts 0x2 16 + optionBits opts 0x1 11

/-- An initial position at `p`. -/
def initialPositionBits (m : Mem) (p : Nat) : Nat :=
  let opts := m.field (p + 1) 8
  9 + optionBits opts 0x80 (dDateTimeBits (m.field (p + 9) 7)) + 63 + optionBits opts 0x40 16 +
    optionBits opts 0x20 15 + optionBits opts 0x10 13 + optionBits opts 0x8 32 +
    optionBits opts 0x4 6 + optionBits opts 0x2 8 + optionBits opts 0x1 8

def crumbBits (m : Mem) (p : Nat) : Nat :=
  let opts := m.field (p + 1) 3
  68 + optionBits opts 0x4 13 + optionBits opts 0x2 32 + optionBits opts 0x1 8

def pathHistoryBits (m : Mem) (p : Nat) : Nat :=
  let opts := m.field (p + 1) 2
  let crumbs := 3 + optionBits opts 0x2 (initialPositionBits m (p + 3)) + optionBits opts 0x1 8
  crumbs + 5 + elementsWidth (crumbBits m) (p + crumbs + 5) (m.field (p + crumbs) 5 + 1)

def safetyBits (m : Mem) (p : Nat) : Nat :=
  let opts := m.field (p + 1) 4
  let history := 5 + optionBits opts 0x8 14
  history + optionBits opts 0x4 (pathHistoryBits m (p + history)) + optionBits opts 0x2 25 +
    optionBits opts 0x1 10

def emergencyBits (opts : Nat) : Nat := 15 + optionBits opts 0x2 22 + optionBits opts 0x1 4

def eventDescriptionBits (m : Mem) (p : Nat) : Nat :=
  let opts := m.field (p + 1) 5
  22 + optionBits opts 0x10 (3 + 16 * (m.field (p + 22) 3 + 1)) + optionBits opts 0x8 8 +
    optionBits opts 0x4 16 + optionBits opts 0x2 4

def specialBits (m : Mem) (p : Nat) : Nat :=
  let opts := m.field (p + 1) 3
  let description := 4 + optionBits opts 0x4 (emergencyBits (m.field (p + 5) 2))
  description + optionBits opts 0x2 (eventDescriptionBits m (p + description)) +
    optionBits opts 0x1 1

def vehicleDataBits (opts : Nat) : Nat :=
  5 + optionBits opts 0x8 7 + optionBits opts 0x4 14 + optionBits opts 0x2 8 +
    optionBits opts 0x1 16

def wipersBits (opts : Nat) : Nat := 13 + optionBits opts 0x2 4 + optionBits opts 0x1 7

def weatherProbeBits (m : Mem) (p : Nat) : Nat :=
  let opts := m.field (p + 1) 3
  let wipers := 4 + optionBits opts 0x4 8 + optionBits opts 0x2 8
  wipers + optionBits opts 0x1 (wipersBits (m.field (p + wipers) 2))

def supplementalBits (m : Mem) (p : Nat) : Nat :=
  let opts := m.field (p + 1) 10
  let data := 11 + optionBits opts 0x200 8
  let weather := data + optionBits opts 0x80 (vehicleDataBits (m.field (p + data + 1) 4))
  weather + optionBits opts 0x20 (weatherProbeBits m (p + weather))

/-- The content of an extension with this id. -/
def contentBits (m : Mem) (id p : Nat) : Nat :=
  if id = 0 then safetyBits m p else if id = 1 then specialBits m p else supplementalBits m p

/-! ## The decoder reads these -/

section ends

variable {α β : Type} {m : Mem} {last p : Nat}

theorem ends_optionBits {opts mask w : Nat} {absent : α} {x : Reader α}
    (hx : Ends m last x p (p + w)) :
    Ends m last (optional (opts &&& mask ≠ 0) absent x) p (p + optionBits opts mask w) :=
  ends_optional fun _ => hx

theorem ends_signed {n : Nat} {hn : 0 < n ∧ n ≤ 32} {offset : Int} :
    Ends m last (readSigned n hn offset) p (p + n) :=
  ends_field.finish rfl

theorem ends_flags {n : Nat} {hn : 0 < n ∧ n ≤ 32} :
    Ends m last (readFlags n hn) p (p + (1 + n)) := by
  rw [← Nat.add_assoc]
  exact ends_field.bind fun _ => ends_field

theorem ends_posAccuracy : Ends m last readPosAccuracy p (p + 32) :=
  ends_field.bind fun _ => ends_field.bind fun _ => ends_field.finish rfl

theorem ends_posConfidenceSet : Ends m last readPosConfidenceSet p (p + 8) :=
  ends_field.bind fun _ => ends_field.finish rfl

theorem ends_motionConfidenceSet : Ends m last readMotionConfidenceSet p (p + 8) :=
  ends_field.bind fun _ => ends_field.bind fun _ => ends_field.finish rfl

theorem ends_dDateTime (old : DDateTime) :
    Ends m last (readDDateTime old) p (p + dDateTimeBits (m.field p 7)) := by
  refine ends_bits ?_
  refine (ends_optionBits ends_field).bind fun _ => ?_
  refine (ends_optionBits ends_field).bind fun _ => ?_
  refine (ends_optionBits ends_field).bind fun _ => ?_
  refine (ends_optionBits ends_field).bind fun _ => ?_
  refine (ends_optionBits ends_field).bind fun _ => ?_
  refine (ends_optionBits ends_field).bind fun _ => ?_
  refine (ends_optionBits (ends_field.finish rfl)).finish ?_
  unfold dDateTimeBits
  omega

theorem ends_initialPosition (old : FullPositionVector) :
    Ends m last (readInitialPosition old) p (p + initialPositionBits m p) := by
  refine ends_field.bind fun _ => ends_bits ?_
  refine (ends_optionBits (ends_dDateTime _)).bind fun _ => ?_
  refine ends_signed.bind fun _ => ends_signed.bind fun _ => ?_
  refine (ends_optionBits ends_signed).bind fun _ => ?_
  refine (ends_optionBits ends_field).bind fun _ => ?_
  refine (ends_optionBits ends_field).bind fun _ => ?_
  refine (ends_optionBits ends_posAccuracy).bind fun _ => ?_
  refine (ends_optionBits ends_field).bind fun _ => ?_
  refine (ends_optionBits ends_posConfidenceSet).bind fun _ => ?_
  refine (ends_optionBits ends_motionConfidenceSet).finish ?_
  unfold initialPositionBits
  simp only [Nat.add_assoc, Nat.reduceAdd]

theorem ends_crumb (old : PhPoint) : Ends m last (readCrumb old) p (p + crumbBits m p) := by
  refine ends_field.bind fun _ => ends_bits ?_
  refine ends_signed.bind fun _ => ends_signed.bind fun _ => ends_signed.bind fun _ => ?_
  refine ends_field.bind fun _ => ?_
  refine (ends_optionBits ends_field).bind fun _ => ?_
  refine (ends_optionBits ends_posAccuracy).bind fun _ => ?_
  refine (ends_optionBits (ends_field.finish rfl)).finish ?_
  unfold crumbBits
  simp only
  omega

theorem ends_pathHistory (old : PathHistory) :
    Ends m last (readPathHistory old) p (p + pathHistoryBits m p) := by
  refine ends_field.bind fun _ => ends_bits ?_
  refine (ends_optionBits (ends_initialPosition _)).bind fun _ => ?_
  refine (ends_optionBits ends_field).bind fun _ => ends_bits ?_
  simp only
  split
  · exact ends_stop
  · refine (ends_forEach (fun _ _ => ends_crumb _) _).finish ?_
    rw [List.length_range]
    unfold pathHistoryBits
    simp only [Nat.add_assoc, Nat.reduceAdd]

theorem ends_pathPrediction : Ends m last readPathPrediction p (p + 25) :=
  ends_field.bind fun _ => ends_field.bind fun _ => ends_field.finish rfl

theorem ends_safetyContent (v : BsmValue) :
    Ends m last (readSafetyContent v) p (p + safetyBits m p) := by
  refine ends_field.bind fun _ => ends_bits ?_
  refine (ends_optionBits ends_flags).bind fun _ => ?_
  refine (ends_optionBits (ends_pathHistory _)).bind fun _ => ?_
  refine (ends_optionBits ends_pathPrediction).bind fun _ => ?_
  refine (ends_optionBits ends_flags).finish ?_
  unfold safetyBits
  simp only [Nat.add_assoc, Nat.reduceAdd]

theorem ends_privilegedEvents : Ends m last readPrivilegedEvents p (p + 22) :=
  ends_field.bind fun _ => ends_field.bind fun _ => ends_field.finish rfl

theorem ends_emergencyDetails (old : EmergencyDetails) :
    Ends m last (readEmergencyDetails old) p (p + emergencyBits (m.field (p + 1) 2)) := by
  refine ends_field.bind fun _ => ends_bits ?_
  refine ends_field.bind fun _ => ends_field.bind fun _ => ends_field.bind fun _ => ?_
  refine ends_field.bind fun _ => ?_
  refine (ends_optionBits ends_privilegedEvents).bind fun _ => ?_
  refine (ends_optionBits ends_flags).finish ?_
  unfold emergencyBits
  simp only [Nat.add_assoc, Nat.reduceAdd]

theorem ends_descriptions (old : EventDescription) :
    Ends m last (readDescriptions old) p (p + (3 + 16 * (m.field p 3 + 1))) := by
  refine ends_bits ?_
  refine (ends_forEach (fun _ _ => ends_field) _).finish ?_
  rw [elementsWidth_const, List.length_range]
  omega

theorem ends_eventDescription (old : EventDescription) :
    Ends m last (readEventDescription old) p (p + eventDescriptionBits m p) := by
  refine ends_field.bind fun _ => ends_bits ?_
  refine ends_field.bind fun _ => ?_
  refine (ends_optionBits (ends_descriptions _)).bind fun _ => ?_
  refine (ends_optionBits ends_field).bind fun _ => ?_
  refine (ends_optionBits ends_field).bind fun _ => ?_
  refine (ends_optionBits ends_field).finish ?_
  unfold eventDescriptionBits
  simp only [Nat.add_assoc, Nat.reduceAdd]

theorem ends_specialContent (v : BsmValue) :
    Ends m last (readSpecialContent v) p (p + specialBits m p) := by
  refine ends_field.bind fun _ => ends_need (ends_bits ?_)
  refine (ends_optionBits (ends_emergencyDetails _)).bind fun _ => ?_
  refine (ends_optionBits (ends_eventDescription _)).bind fun _ => ?_
  refine (ends_optionBits ends_field).finish ?_
  unfold specialBits
  simp only [Nat.add_assoc, Nat.reduceAdd]

theorem ends_bumpers : Ends m last readBumpers p (p + 14) :=
  ends_need (ends_field.bind fun _ => ends_field.finish rfl)

theorem ends_vehicleData (old : VehicleData) :
    Ends m last (readVehicleData old) p (p + vehicleDataBits (m.field (p + 1) 4)) := by
  refine ends_need (ends_field.bind fun _ => ends_bits ?_)
  refine (ends_optionBits (ends_need (ends_field.finish rfl))).bind fun _ => ?_
  refine (ends_optionBits ends_bumpers).bind fun _ => ?_
  refine (ends_optionBits (ends_need (ends_field.finish rfl))).bind fun _ => ?_
  refine (ends_optionBits (ends_need ends_field)).finish ?_
  unfold vehicleDataBits
  simp only [Nat.add_assoc, Nat.reduceAdd]

theorem ends_wipers (old : Weather) :
    Ends m last (readWipers old) p (p + wipersBits (m.field p 2)) := by
  refine ends_bits ?_
  refine ends_field.bind fun _ => ends_field.bind fun _ => ?_
  refine (ends_optionBits ends_field).bind fun _ => ?_
  refine (ends_optionBits ends_field).finish ?_
  unfold wipersBits
  simp only [Nat.add_assoc, Nat.reduceAdd]

theorem ends_weatherProbe (old : Weather) :
    Ends m last (readWeatherProbe old) p (p + weatherProbeBits m p) := by
  refine ends_field.bind fun _ => ends_bits ?_
  refine (ends_optionBits ends_field).bind fun _ => ?_
  refine (ends_optionBits ends_field).bind fun _ => ?_
  refine (ends_optionBits (ends_wipers _)).finish ?_
  unfold weatherProbeBits
  simp only [Nat.add_assoc, Nat.reduceAdd]

/-- An unsupported part ends the run, or is not there. -/
theorem ends_unsupported {c : Prop} [Decidable c] : Ends m last (unsupported c) p p := by
  unfold unsupported Reader.optional
  split
  · exact ends_stop
  · exact ends_pure _ rfl

theorem ends_supplementalContent (v : BsmValue) :
    Ends m last (readSupplementalContent v) p (p + supplementalBits m p) := by
  refine ends_need (ends_field.bind fun _ => ends_bits ?_)
  refine (ends_optionBits ends_field).bind fun _ => ends_unsupported.bind fun _ => ?_
  refine (ends_optionBits (ends_vehicleData _)).bind fun _ => ends_unsupported.bind fun _ => ?_
  refine (ends_optionBits (ends_weatherProbe _)).bind fun _ => ends_unsupported.finish ?_
  unfold supplementalBits
  simp only [Nat.add_assoc, Nat.reduceAdd]

/-- The three kinds of extension, behind the id. -/
theorem next_safetyExt (v : BsmValue) {a : BsmValue} {q saved saved' : Nat}
    (h : (readVehicleSafetyExt v >>= fun v => restore (done v)).eval m last p saved =
      some (a, q, saved')) :
    q = lengthNext m p + 8 * ((safetyBits m (lengthNext m p) + 7) / 8) := by
  have hneed : p / 8 + calcBytesNeededForNMoreBits 8 (8 - p % 8) ≤ last := by
    by_contra hshort
    rw [eval_bind, readVehicleSafetyExt, needBits, eval_need_short (by omega)] at h
    exact absurd h (by simp)
  rw [eval_bind, readVehicleSafetyExt, needBits, eval_need hneed] at h
  exact next_openType (ends_need (ends_safetyContent v)) ((eval_bind _ _ _ _ _ _).trans h)

theorem next_specialExt (v : BsmValue) {a : BsmValue} {q saved saved' : Nat}
    (h : (readSpecialVehicleExt v >>= fun v => restore (done v)).eval m last p saved =
      some (a, q, saved')) :
    q = lengthNext m p + 8 * ((specialBits m (lengthNext m p) + 7) / 8) :=
  next_openType (ends_specialContent v) h

theorem next_supplementalExt (v : BsmValue) {a : BsmValue} {q saved saved' : Nat}
    (h : (readSupplementalVehicleExt v >>= fun v => restore (done v)).eval m last p saved =
      some (a, q, saved')) :
    q = lengthNext m p + 8 * ((supplementalBits m (lengthNext m p) + 7) / 8) :=
  next_openType (ends_supplementalContent v) h

/-- One extension: the next one is looked for behind the octets of the known content. -/
theorem next_extension (v : BsmValue) {a : BsmValue} {q saved saved' : Nat}
    (h : (readExtension v).eval m last p saved = some (a, q, saved')) :
    q = lengthNext m (p + 6) +
      8 * ((contentBits m (m.field p 6) (lengthNext m (p + 6)) + 7) / 8) := by
  have hneed : p / 8 + calcBytesNeededForNMoreBits 6 (8 - p % 8) ≤ last := by
    by_contra hshort
    rw [readExtension, needBits, eval_need_short (by omega)] at h
    exact absurd h (by simp)
  rw [readExtension, needBits, eval_need hneed, eval_bits rfl] at h
  unfold contentBits
  by_cases h₀ : m.field p 6 = 0
  · rw [if_pos h₀] at h ⊢
    exact next_safetyExt v h
  · by_cases h₁ : m.field p 6 = 1
    · rw [if_neg h₀, if_pos h₁] at h ⊢
      exact next_specialExt v h
    · rw [if_neg h₀, if_neg h₁] at h ⊢
      by_cases h₂ : m.field p 6 = 2
      · rw [if_pos h₂] at h
        exact next_supplementalExt v h
      · rw [if_neg h₂] at h
        exact absurd h (by simp [eval_bind, eval])

end ends

/-! ## The loop over the extensions -/

/-- Part II up to behind the first `k` extensions. -/
def readPartIIUpTo (k : Nat) (v : BsmValue) : Reader BsmValue := do
  let n ← readPartIIHeader
  if k ≤ n + 1 then readExtensions k { v with qtyPartIIExtensions := n + 1 } else stop

/-- The pointer and the bits left where `decode_as_bsm` looks for the id behind `k` extensions,
`none` when it does not get there. -/
def idCursor (m : Mem) (data len : Nat) (v : BsmValue) (k : Nat) : Option Cursor :=
  if len < 31 ∨ isExtended m data ∨ ¬ announcesPartII m data then none
  else ((readPartIIUpTo k (withCore m data len v)).walk m (data + len - 1) ⟨data + 36, 3⟩ 8).map
    fun r => r.2.1

theorem walk_readExtensions_succ (m : Mem) (last k : Nat) (v : BsmValue) (c : Cursor)
    (saved : Nat) :
    (readExtensions (k + 1) v).walk m last c saved =
      ((readExtensions k v).walk m last c saved).bind fun r =>
        (readExtension r.1).walk m last r.2.1 r.2.2 := by
  induction k generalizing v c saved with
  | zero =>
    exact (walk_bind m last (readExtension v) (readExtensions 0) c saved).trans
      (Option.bind_fun_some _)
  | succ k ih =>
    rw [readExtensions, walk_bind, readExtensions, walk_bind, Option.bind_assoc]
    simp only [ih]

/-- The step of the loop: between two ids there is one extension. -/
theorem readPartIIUpTo_succ {m : Mem} {last k : Nat} {v : BsmValue} {c : Cursor} {saved : Nat}
    {r : BsmValue × Cursor × Nat} (h : (readPartIIUpTo (k + 1) v).walk m last c saved = some r) :
    ∃ s, (readPartIIUpTo k v).walk m last c saved = some s ∧
      (readExtension s.1).walk m last s.2.1 s.2.2 = some r := by
  rw [readPartIIUpTo, walk_bind, Option.bind_eq_some_iff] at h
  obtain ⟨⟨n, c₀, saved₀⟩, hheader, hrest⟩ := h
  by_cases hk : k + 1 ≤ n + 1
  · rw [if_pos hk, walk_readExtensions_succ, Option.bind_eq_some_iff] at hrest
    obtain ⟨s, hs, hr⟩ := hrest
    refine ⟨s, ?_, hr⟩
    rw [readPartIIUpTo, walk_bind, hheader]
    simp only [Option.bind_some]
    rw [if_pos (by omega)]
    exact hs
  · rw [if_neg hk] at hrest
    exact absurd hrest (by simp [walk])

section message

variable (m : Mem) (data len : Nat) (v : BsmValue)

/-- An extension that is parsed, between the cursors of two ids. -/
theorem idCursor_succ {k : Nat} {c' : Cursor} (h : idCursor m data len v (k + 1) = some c') :
    ∃ c, idCursor m data len v k = some c ∧ c.Valid ∧ c'.Valid ∧
      c'.pos = lengthNext m (c.pos + 6) +
        8 * ((contentBits m (m.field c.pos 6) (lengthNext m (c.pos + 6)) + 7) / 8) := by
  unfold idCursor at h ⊢
  by_cases hno : len < 31 ∨ isExtended m data ∨ ¬ announcesPartII m data
  · rw [if_pos hno] at h
    exact absurd h (by simp)
  · rw [if_neg hno, Option.map_eq_some_iff] at h
    rw [if_neg hno]
    obtain ⟨⟨a, _, saved'⟩, hrun, rfl⟩ := h
    obtain ⟨⟨b, c, saved⟩, hbefore, hext⟩ := readPartIIUpTo_succ hrun
    have hstart : (⟨data + 36, 3⟩ : Cursor).Valid := ⟨by simp, by simp⟩
    obtain ⟨-, hc, hs⟩ := eval_of_walk hstart (show 0 < 8 ∧ 8 ≤ 8 by decide) hbefore
    obtain ⟨heval, hc', -⟩ := eval_of_walk hc hs hext
    refine ⟨c, ?_, hc, hc', next_extension b heval⟩
    rw [hbefore]
    rfl

end message

/-! ## The declared length -/

/-- The length behind the id at `c`, and the cursor behind it. -/
def declaredLength (m : Mem) (c : Cursor) : Int × Cursor :=
  parseAsnVariableLengthEnc m (getNextNBits m c 6).2

/-- `c'` is as many octets behind the length of the extension at `c` as that declares. -/
def InStep (m : Mem) (c c' : Cursor) : Prop :=
  (c'.cp : Int) = (declaredLength m c).2.cp + (declaredLength m c).1 ∧
    c'.bitsLeft = (declaredLength m c).2.bitsLeft

/-- The known content of the extension at `c` ends in the last of the declared octets. -/
def DeclaresKnown (m : Mem) (c : Cursor) : Prop :=
  let known := contentBits m (getNextNBits m c 6).1 (declaredLength m c).2.pos
  8 * ((declaredLength m c).1 - 1) < known ∧ known ≤ 8 * (declaredLength m c).1

section decidable

variable (m : Mem) (c c' : Cursor)

instance : Decidable (InStep m c c') := inferInstanceAs (Decidable (_ ∧ _))

instance : Decidable (DeclaresKnown m c) := inferInstanceAs (Decidable (_ ∧ _))

end decidable

theorem declaredLength_spec (m : Mem) {c : Cursor} (hc : c.Valid) :
    (declaredLength m c).1 = lengthAt m (c.pos + 6) ∧ (declaredLength m c).2.Valid ∧
      (declaredLength m c).2.pos = lengthNext m (c.pos + 6) := by
  obtain ⟨-, hc', hpos⟩ := getNextNBits_spec m hc (n := 6) (by decide) (by decide)
  have h := parseAsnVariableLengthEnc_spec m hc'
  rw [hpos] at h
  exact h

/-- Whole octets agree with the declared ones exactly when the content ends in the last of these. -/
theorem inStep_iff_of_next {m : Mem} {c c' : Cursor} (hc : c.Valid) (hc' : c'.Valid)
    (hnext : c'.pos = lengthNext m (c.pos + 6) +
      8 * ((contentBits m (m.field c.pos 6) (lengthNext m (c.pos + 6)) + 7) / 8)) :
    InStep m c c' ↔ DeclaresKnown m c := by
  obtain ⟨hn, he, hpos⟩ := declaredLength_spec m hc
  obtain ⟨hid, -⟩ := getNextNBits_spec m hc (n := 6) (by decide) (by decide)
  unfold InStep DeclaresKnown
  rw [hc'.ahead_iff he, hpos, hnext, hid]
  simp only
  omega

/-! ## A whole Part II -/

/-- The next id is looked for where the declared octets end exactly when the known content ends in
the last of them. -/
theorem idCursor_inStep_iff (m : Mem) (data len : Nat) (v : BsmValue) (k : Nat) {c c' : Cursor}
    (h : idCursor m data len v k = some c) (h' : idCursor m data len v (k + 1) = some c') :
    InStep m c c' ↔ DeclaresKnown m c := by
  obtain ⟨b, hb, hc, hc', hnext⟩ := idCursor_succ m data len v h'
  obtain rfl : c = b := Option.some.inj (h.symm.trans hb)
  exact inStep_iff_of_next hc hc' hnext

/-- A message with Part II flagged, all zero up to the byte with the number of extensions. -/
def partIIMessage (octets : List UInt8) : Mem :=
  fun i => (0x40 :: List.replicate 35 0 ++ octets).getD i 0

/-- Two supplemental extensions of two octets, with no option bit set. -/
def plainExtensions : Mem :=
  partIIMessage [0x01, 0x08, 0x08, 0x00, 0x00, 0x20, 0x20, 0x00, 0x00]

theorem idCursor_inStep_plain : InStep plainExtensions ⟨37, 8⟩ ⟨40, 2⟩ :=
  (idCursor_inStep_iff plainExtensions 0 45 BsmValue.zero 0 rfl rfl).mpr (by decide)

/-- The first of the two has its extension bit set and an addition of one octet behind the option
bits, which makes five octets. The second is looked for behind the second of them. -/
def extendedExtension : Mem :=
  partIIMessage [0x01, 0x08, 0x16, 0x00, 0x00, 0x80, 0xd5, 0x00, 0x20, 0x20, 0x00, 0x00]

theorem idCursor_short_of_extended :
    idCursor extendedExtension 0 48 BsmValue.zero 0 = some ⟨37, 8⟩ ∧
      idCursor extendedExtension 0 48 BsmValue.zero 1 = some ⟨40, 2⟩ ∧
      ¬ InStep extendedExtension ⟨37, 8⟩ ⟨40, 2⟩ :=
  ⟨rfl, rfl, by decide⟩

end SatComm.J2735
