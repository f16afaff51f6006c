import SatComm.Codes.Base128
import SatComm.ECall.Oid

/-!
# The octets of an object identifier's component

`processOctet` writes a component in the groups of a base-128 number, and takes the number of
groups from the length of the hexadecimal text and a test of the leading byte. For components
of two bytes that test looks at bit 15 only, so one with bit 14 as its highest bit gets two
groups where it needs three and loses that bit. Every other component gets its canonical word.
-/

namespace SatComm.ECall

open Codes Codes.Base128

/-- The components that lose their highest bit. -/
def Short (v : Int) : Prop := 2 ^ 14 ≤ v ∧ v < 2 ^ 15

instance (v : Int) : Decidable (Short v) := inferInstanceAs (Decidable (_ ∧ _))

/-- `octets` is the canonical base-128 encoding of `v`. -/
def IsBase128 (v : Int) (octets : List Int) : Prop :=
  ∃ word : List Nat, octets = word.map Int.ofNat ∧ Canonical v.toNat word

/-! ## The groups -/

/-- The shifts by eight and one, with the bit kept aside, are a shift by seven. -/
theorem shift_seven (t : Nat) : t >>> 8 <<< 1 ||| (t >>> 7 &&& 1) = t >>> 7 := by
  have hlow : t >>> 7 &&& 1 < 2 ^ 1 := by
    rw [Nat.and_one_is_mod]
    omega
  rw [← Nat.shiftLeft_add_eq_or_of_lt hlow, Nat.and_one_is_mod, Nat.shiftLeft_eq,
    Nat.shiftRight_eq_div_pow, Nat.shiftRight_eq_div_pow]
  omega

theorem marked_group {left bit : Nat} (u : Nat) (h : left ||| bit = u) :
    (left ||| 0x80 ||| bit) &&& 0xff = more u := by
  have hor : left ||| 0x80 ||| bit = u ||| 0x80 := by
    rw [← h, Nat.or_assoc, Nat.or_assoc, Nat.or_comm 0x80 bit]
  have hmod : (u ||| 0x80) &&& 0xff = 2 ^ 7 * 1 + u % 2 ^ 7 := by
    rw [Nat.two_pow_add_eq_or_of_lt (Nat.mod_lt u (by decide))]
    apply Nat.eq_of_testBit_eq
    intro i
    have h80 : Nat.testBit 0x80 i = decide (i = 7) := by
      rw [show (0x80 : Nat) = 2 ^ 7 from rfl, Nat.testBit_two_pow]
      exact decide_eq_decide.mpr eq_comm
    have hff : Nat.testBit 0xff i = decide (i < 8) := by
      rw [show (0xff : Nat) = 2 ^ 8 - 1 from rfl, Nat.testBit_two_pow_sub_one]
    rw [Nat.testBit_and, Nat.testBit_or, Nat.testBit_or, Nat.testBit_mod_two_pow, hff, h80]
    by_cases h7 : i = 7
    · simp [h7]
    · by_cases hlt : i < 7
      · simp [h7, hlt, show i < 8 by omega]
      · simp [h7, hlt, show ¬ i < 8 by omega]
  rw [hor, hmod]
  rfl

/-- The last loop writes the groups of what is left of the component. -/
theorem upperOctets_eq (n t bit u : Nat) (hbit : bit < 2) (h : t >>> 8 <<< 1 ||| bit = u) :
    upperOctets n t bit = groups n u := by
  induction n generalizing t bit u with
  | zero => rfl
  | succ n ih =>
    have hnext : (t >>> 8 <<< 1) >>> 7 = u / 128 := by
      have hu : t >>> 8 <<< 1 + bit = u := by
        rw [← h, Nat.shiftLeft_add_eq_or_of_lt (by omega)]
      rw [Nat.shiftRight_eq_div_pow, Nat.shiftLeft_eq] at *
      omega
    rw [upperOctets, groups, marked_group u h]
    refine congrArg _ (ih _ _ _ ?_ ?_)
    · rw [Nat.and_one_is_mod]
      omega
    · rw [shift_seven, hnext]

theorem encodingToMultiByte_eq {octet n : Nat} (h : outputCount octet = n + 1) :
    encodingToMultiByte octet = spell n octet := by
  have hlow : octet &&& 0x7f = octet % 128 := Nat.and_two_pow_sub_one_eq_mod octet 7
  have hbit : octet >>> 7 &&& 1 < 2 := by
    rw [Nat.and_one_is_mod]
    omega
  have hrest : upperOctets n octet (octet >>> 7 &&& 1) = groups n (octet / 128) :=
    upperOctets_eq n octet _ _ hbit
      ((shift_seven octet).trans (Nat.shiftRight_eq_div_pow octet 7))
  rw [encodingToMultiByte, h]
  show ((octet &&& 0x7f) :: upperOctets n octet (octet >>> 7 &&& 1)).reverse = spell n octet
  rw [hlow, hrest, spell]

/-! ## Their number -/

/-- The hexadecimal text has two digits for each byte. -/
theorem byteCount_eq {octet c : Nat} (hlo : 256 ^ c ≤ octet) (hhi : octet < 256 ^ (c + 1)) :
    byteCount octet = c + 1 := by
  have hle : (Nat.toDigits 16 octet).length ≤ 2 * (c + 1) :=
    (Nat.length_toDigits_le_iff (by decide) (by omega)).mpr (by rwa [Nat.pow_mul])
  have hgt : 2 * c < (Nat.toDigits 16 octet).length := by
    rcases Nat.eq_zero_or_pos c with rfl | hc
    · exact Nat.length_toDigits_pos
    · by_contra hnot
      have := (Nat.length_toDigits_le_iff (b := 16) (by decide) (by omega)).mp
        (Nat.le_of_not_gt hnot)
      rw [Nat.pow_mul] at this
      exact absurd hlo (Nat.not_le_of_lt this)
  simp only [byteCount]
  split <;> omega

/-- One of the bits from `b` to `7` of a byte is set. -/
theorem any_upper_bits {t b : Nat} (ht : t < 256) (hb : b ≤ 7) :
    (List.range' b (8 - b)).any t.testBit = true ↔ 2 ^ b ≤ t := by
  rw [List.any_eq_true]
  constructor
  · rintro ⟨i, hi, hbit⟩
    have hbi : b ≤ i := (List.mem_range'_1.mp hi).1
    exact (Nat.pow_le_pow_right (by decide) hbi).trans (Nat.ge_two_pow_of_testBit hbit)
  · intro hle
    obtain ⟨i, hbi, hbit⟩ := Nat.exists_ge_and_testBit_of_ge_two_pow hle
    have hi : i < 8 := by
      by_contra hnot
      have h256 : 2 ^ 8 ≤ 2 ^ i := Nat.pow_le_pow_right (by decide) (by omega)
      have := Nat.ge_two_pow_of_testBit hbit
      omega
    exact ⟨i, List.mem_range'_1.mpr ⟨hbi, by omega⟩, hbit⟩

theorem outputCount_eq {octet c b : Nat} (hlo : 256 ^ c ≤ octet) (hhi : octet < 256 ^ (c + 1))
    (hlead : leadingByte octet (c + 1) = (octet >>> (8 * c), b)) (hb : b ≤ 7) :
    outputCount octet = if 2 ^ (8 * c + b) ≤ octet then c + 2 else c + 1 := by
  have hq : octet >>> (8 * c) < 256 := by
    rw [Nat.shiftRight_eq_div_pow, Nat.pow_mul, Nat.div_lt_iff_lt_mul (by positivity),
      ← Nat.pow_succ']
    exact hhi
  have hany := any_upper_bits hq hb
  rw [Nat.shiftRight_eq_div_pow, Nat.le_div_iff_mul_le (by positivity), ← Nat.pow_add,
    Nat.add_comm b, ← Nat.shiftRight_eq_div_pow] at hany
  simp only [outputCount, byteCount_eq hlo hhi, hlead]
  exact if_congr hany rfl rfl

/-- The groups that `processOctet` writes for a component, less one. -/
def upperGroups (v : Nat) : Nat :=
  if v < 2 ^ 7 then 0 else if v < 2 ^ 15 then 1 else if v < 2 ^ 21 then 2
  else if v < 2 ^ 28 then 3 else 4

theorem outputCount_eq_upperGroups {v : Nat} (hlo : 2 ^ 7 ≤ v) (hhi : v < 2 ^ 31) :
    outputCount v = upperGroups v + 1 := by
  unfold upperGroups
  by_cases h1 : v < 256 ^ 1
  · rw [outputCount_eq (c := 0) (by omega) h1 rfl (by decide)]
    split_ifs <;> omega
  by_cases h2 : v < 256 ^ 2
  · rw [outputCount_eq (c := 1) (by omega) h2 rfl (by decide)]
    split_ifs <;> omega
  by_cases h3 : v < 256 ^ 3
  · rw [outputCount_eq (c := 2) (by omega) h3 rfl (by decide)]
    split_ifs <;> omega
  · rw [outputCount_eq (c := 3) (by omega) (by omega) rfl (by decide)]
    split_ifs <;> omega

/-- What `processOctet` writes. -/
theorem processOctet_eq {v : Int} (hlo : 0 ≤ v) (hhi : v < 2 ^ 31) :
    processOctet v = (spell (upperGroups v.toNat) v.toNat).map Int.ofNat := by
  unfold processOctet
  split
  · have hsmall : v.toNat < 128 := by omega
    rw [upperGroups, if_pos (show v.toNat < 2 ^ 7 from hsmall), spell, groups,
      Nat.mod_eq_of_lt hsmall]
    simp [Int.toNat_of_nonneg hlo]
  · rw [encodingToMultiByte_eq (outputCount_eq_upperGroups (by omega) (by omega))]

/-! ## What the words say -/

theorem upperGroups_of_short {v : Int} (h : Short v) : upperGroups v.toNat = 1 := by
  obtain ⟨hlo, hhi⟩ := h
  unfold upperGroups
  rw [if_neg (by omega), if_pos (by omega)]

/-- The groups are as many as the component needs. -/
theorem upperGroups_exact_iff {v : Nat} (hhi : v < 2 ^ 31) :
    (v < 128 ^ (upperGroups v + 1) ∧ (upperGroups v = 0 ∨ 128 ^ upperGroups v ≤ v)) ↔
      ¬ (2 ^ 14 ≤ v ∧ v < 2 ^ 15) := by
  unfold upperGroups
  split_ifs <;> omega

theorem map_ofNat_injective : Function.Injective (List.map Int.ofNat) :=
  List.map_injective_iff.mpr fun _ _ => Int.ofNat.inj

theorem isBase128_processOctet_iff {v : Int} (hlo : 0 ≤ v) (hhi : v < 2 ^ 31) :
    IsBase128 v (processOctet v) ↔ ¬ Short v := by
  have hcount : Canonical v.toNat (spell (upperGroups v.toNat) v.toNat) ↔ ¬ Short v := by
    rw [canonical_spell_iff, upperGroups_exact_iff (by omega), Short]
    omega
  rw [← hcount, processOctet_eq hlo hhi]
  constructor
  · rintro ⟨word, heq, hword⟩
    exact map_ofNat_injective heq ▸ hword
  · intro h
    exact ⟨_, rfl, h⟩

/-- Two components have one word only when they differ in the bit that is lost. -/
theorem processOctet_eq_iff {v w : Int} (hv : 0 ≤ v ∧ v < 2 ^ 31) (hw : 0 ≤ w ∧ w < 2 ^ 31)
    (hle : v ≤ w) :
    processOctet v = processOctet w ↔ v = w ∨ (2 ^ 7 ≤ v ∧ Short w ∧ v = w - 2 ^ 14) := by
  rw [processOctet_eq hv.1 hv.2, processOctet_eq hw.1 hw.2, map_ofNat_injective.eq_iff]
  constructor
  · intro h
    have hcount : upperGroups v.toNat = upperGroups w.toNat := by
      simpa using congrArg List.length h
    have hvalue := congrArg value h
    rw [value_spell, value_spell, ← hcount] at hvalue
    unfold Short
    unfold upperGroups at hcount hvalue
    split_ifs at hcount hvalue <;> omega
  · rintro (rfl | ⟨hlo, hshort, heq⟩)
    · rfl
    · have hone : upperGroups v.toNat = 1 := by
        unfold upperGroups
        obtain ⟨hwlo, hwhi⟩ := hshort
        rw [if_neg (by omega), if_pos (by omega)]
      have hmod : w.toNat % 128 = v.toNat % 128 ∧
          w.toNat / 128 % 128 = v.toNat / 128 % 128 := by omega
      rw [upperGroups_of_short hshort, hone]
      simp only [spell, groups, more, hmod.1, hmod.2]

theorem prefixFree_processOctet {S : Set Int} (hS : ∀ v ∈ S, 0 ≤ v ∧ v < 2 ^ 31) :
    PrefixFree (processOctet '' S) := by
  have hwords : processOctet '' S =
      List.map Int.ofNat '' ((fun v : Int => spell (upperGroups v.toNat) v.toNat) '' S) := by
    rw [Set.image_image]
    exact Set.image_congr fun v hv => processOctet_eq (hS v hv).1 (hS v hv).2
  rw [hwords]
  apply PrefixFree.map _ Int.ofNat_injective
  apply prefixFree
  rintro _ ⟨v, -, rfl⟩
  exact terminated_spell _ _

/-- Lists over a set of components keep their identity in their octets iff no component of the
set has the words of another one. -/
theorem injOn_uperEncodingForOctets_iff {S : Set Int} (hS : ∀ v ∈ S, 0 ≤ v ∧ v < 2 ^ 31) :
    Set.InjOn uperEncodingForOctets {l | ∀ v ∈ l, v ∈ S} ↔
      ∀ w ∈ S, Short w → 2 ^ 7 ≤ w - 2 ^ 14 → w - 2 ^ 14 ∉ S := by
  constructor
  · intro hinj w hw hshort hlo hv
    have hword : processOctet (w - 2 ^ 14) = processOctet w :=
      (processOctet_eq_iff (hS _ hv) (hS w hw) (by omega)).mpr (.inr ⟨hlo, hshort, rfl⟩)
    have hlist : [w - 2 ^ 14] = [w] :=
      hinj (by simpa using hv) (by simpa using hw) (by simpa [uperEncodingForOctets] using hword)
    simp at hlist
  · intro hS'
    have hle : ∀ v ∈ S, ∀ w ∈ S, v ≤ w → processOctet v = processOctet w → v = w := by
      intro v hv w hw hvw heq
      rcases (processOctet_eq_iff (hS v hv) (hS w hw) hvw).mp heq with h | ⟨hlo, hshort, rfl⟩
      · exact h
      · exact absurd hv (hS' w hw hshort hlo)
    refine flatMap_injOn (prefixFree_processOctet hS) ?_ ?_
    · intro v hv hnil
      rw [processOctet_eq (hS v hv).1 (hS v hv).2, List.map_eq_nil_iff] at hnil
      exact spell_ne_nil _ _ hnil
    · intro v hv w hw heq
      rcases Int.le_total v w with hvw | hwv
      · exact hle v hv w hw hvw heq
      · exact (hle w hw v hv hwv heq.symm).symm

/-- In a set of components of object identifiers, one gets its canonical base-128 word iff it does
not need three groups for two bytes, and lists of them are told apart by their octets iff no two
components differ only in the bit that is lost. -/
theorem uperEncodingForOctets_exact {S : Set Int} (hS : ∀ v ∈ S, 0 ≤ v ∧ v < 2 ^ 31) :
    (∀ v ∈ S, IsBase128 v (processOctet v) ↔ ¬ (2 ^ 14 ≤ v ∧ v < 2 ^ 15)) ∧
    (Set.InjOn uperEncodingForOctets {l | ∀ v ∈ l, v ∈ S} ↔
      ∀ w ∈ S, 2 ^ 14 ≤ w ∧ w < 2 ^ 15 → 2 ^ 7 ≤ w - 2 ^ 14 → w - 2 ^ 14 ∉ S) :=
  ⟨fun v hv => isBase128_processOctet_iff (hS v hv).1 (hS v hv).2,
    injOn_uperEncodingForOctets_iff hS⟩

theorem uperEncodingForOctets_exact_oids :
    IsBase128 300 (processOctet 300) ∧
      Set.InjOn uperEncodingForOctets {l | ∀ v ∈ l, v ∈ ({300, 20000} : Set Int)} := by
  obtain ⟨hword, hlists⟩ := uperEncodingForOctets_exact (S := {300, 20000})
    (by rintro v (rfl | rfl) <;> decide)
  refine ⟨(hword 300 (.inl rfl)).mpr (by decide), hlists.mpr ?_⟩
  rintro w (rfl | rfl) hshort - <;> simp at hshort ⊢

/-- `16384` loses its highest bit, and so `16512` and `128` share the octets `81 00`. -/
theorem processOctet_loses_bit :
    ¬ IsBase128 16384 (processOctet 16384) ∧
      ¬ Set.InjOn uperEncodingForOctets {l | ∀ v ∈ l, 0 ≤ v ∧ v < 2 ^ 31} := by
  refine ⟨fun h => (isBase128_processOctet_iff (by decide) (by decide)).mp h (by decide), ?_⟩
  intro hinj
  have hoctets : uperEncodingForOctets [16512] = uperEncodingForOctets [128] := by decide
  have hlist := hinj (by simp) (by simp) hoctets
  simp at hlist

end SatComm.ECall
