import SatComm.Codes.Prefix
import SatComm.Wsmp.RoundTrip

/-!
# The P-encoding as a code

The writer, the reader and the two length functions each split the PSIDs, or the first octets,
into four ranges. The ranges agree: the first octet tells the length of the word, no word is a
prefix of another one, and words are in the order of their PSIDs, the shorter ones first.
-/

namespace SatComm.Wsmp

open Bits Asnbuf Codes

/-- `wsmp_add_psid`: the address behind the word and `*added`, with the word stored at `wsmp`;
`NULL` and `0` for a PSID above `MAX_PSID`. -/
def wsmpAddPsid (m : Mem) (wsmp psid : Nat) : Option Nat × Nat × Mem :=
  if maxPsid < psid then (none, 0, m)
  else
    let added := (psidOctets psid).length
    (some (wsmp + added), added, m.storeAll wsmp (psidOctets psid))

/-! ## Stores and words -/

theorem holds_storeAll (m : Mem) (p : Nat) {os : List Nat} (h : ∀ o ∈ os, o < 256) :
    (m.storeAll p os).Holds p os :=
  Mem.holds_of_bits h (Mem.bits_storeAll p os)

theorem byte_storeAll_of_lt {m : Mem} {p a : Nat} (os : List Nat) (h : a < p) :
    (m.storeAll p os).byte a = m.byte a := by
  induction os generalizing m p with
  | nil => rfl
  | cons o os ih =>
    rw [Mem.storeAll, ih (by omega), Mem.byte_store_of_ne m o (by omega)]

theorem byte_storeAll_of_le {m : Mem} {p a : Nat} (os : List Nat) (h : p + os.length ≤ a) :
    (m.storeAll p os).byte a = m.byte a := by
  induction os generalizing m p with
  | nil => rfl
  | cons o os ih =>
    rw [List.length_cons] at h
    rw [Mem.storeAll, ih (by omega), Mem.byte_store_of_ne m o (by omega)]

/-- The words of the four ranges, as the digits of one number each. -/
theorem psidOctets_digits {psid : Nat} (h : psid ≤ maxPsid) :
    (psid < 0x80 ∧ psidOctets psid = [psid]) ∨
    (0x80 ≤ psid ∧ psid < 0x4080 ∧ ∃ a b, psidOctets psid = [a, b] ∧ b < 256 ∧
      a * 256 + b = psid + 0x7f80) ∨
    (0x4080 ≤ psid ∧ psid < 0x204080 ∧ ∃ a b c, psidOctets psid = [a, b, c] ∧ b < 256 ∧ c < 256 ∧
      (a * 256 + b) * 256 + c = psid + 0xbfbf80) ∨
    (0x204080 ≤ psid ∧ ∃ a b c d, psidOctets psid = [a, b, c, d] ∧ b < 256 ∧ c < 256 ∧ d < 256 ∧
      ((a * 256 + b) * 256 + c) * 256 + d = psid + 0xdfdfbf80) := by
  have hmax : psid ≤ 0x1020407f := h
  unfold psidOctets
  simp only [Nat.shiftRight_eq_div_pow]
  split_ifs with h4 h3 h2
  · exact .inr (.inr (.inr ⟨h4, _, _, _, _, rfl, by omega, by omega, by omega, by omega⟩))
  · exact .inr (.inr (.inl ⟨h3, by omega, _, _, _, rfl, by omega, by omega, by omega⟩))
  · exact .inr (.inl ⟨h2, by omega, _, _, rfl, by omega, by omega⟩)
  · exact .inl ⟨by omega, rfl⟩

/-- The words are in the order of the PSIDs. -/
theorem psidOctets_strictMonoOn : StrictMonoOn psidOctets {n | n ≤ maxPsid} := by
  intro p hp q hq hlt
  have hq' : q ≤ 0x1020407f := hq
  -- across two ranges the first octets differ, within one the numbers do
  rcases psidOctets_digits hp with ⟨_, hw⟩ | ⟨_, _, a, b, hw, _, _⟩ |
      ⟨_, _, a, b, c, hw, _, _, _⟩ | ⟨_, a, b, c, d, hw, _, _, _, _⟩ <;>
    rcases psidOctets_digits hq with ⟨_, hw'⟩ | ⟨_, _, a', b', hw', _, _⟩ |
      ⟨_, _, a', b', c', hw', _, _, _⟩ | ⟨_, a', b', c', d', hw', _, _, _, _⟩ <;>
    (rw [hw, hw']
     simp only [List.cons_lt_cons_iff, List.not_lt_nil, and_false, or_false]
     omega)

theorem wsmPsidPcodedLen_mono {p q : Nat} (h : p ≤ q) :
    wsmPsidPcodedLen p ≤ wsmPsidPcodedLen q := by
  unfold wsmPsidPcodedLen
  split_ifs <;> omega

/-- A memory that holds a word holds every prefix of it, and the reader gets one PSID only. -/
theorem prefixFree_psidOctets : PrefixFree (psidOctets '' {n | n ≤ maxPsid}) := by
  rintro _ ⟨p, hp, rfl⟩ _ ⟨q, hq, rfl⟩ ⟨rest, hrest⟩
  have hwhole : (Mem.storeAll (fun _ => 0) 0 (psidOctets q)).Holds 0 (psidOctets q) :=
    holds_storeAll _ 0 fun o => psidOctets_lt
  have hfront := hwhole
  rw [← hrest] at hfront
  have hread := wsmpDecodePsid_of_holds hp (Mem.holds_append.mp hfront).1
  rw [hrest, wsmpDecodePsid_of_holds hq hwhole] at hread
  rw [hread]

/-- Writing a PSID at `wsmp`: the length announced, the bytes around the word kept, the first
octet telling the length, and the PSID read back. -/
theorem wsmpAddPsid_spec (m : Mem) (wsmp : Nat) {psid : Nat} (h : psid ≤ maxPsid) :
    let r := wsmpAddPsid m wsmp psid
    r.1 = some (wsmp + wsmPsidPcodedLen psid) ∧ r.2.1 = wsmPsidPcodedLen psid ∧
      r.2.2.octets wsmp (wsmPsidPcodedLen psid) = psidOctets psid ∧
      (∀ a, a < wsmp ∨ wsmp + wsmPsidPcodedLen psid ≤ a → r.2.2.byte a = m.byte a) ∧
      psidFieldSize (r.2.2.byte wsmp) = wsmPsidPcodedLen psid ∧
      wsmpDecodePsid r.2.2 wsmp = psid := by
  have hholds : (m.storeAll wsmp (psidOctets psid)).Holds wsmp (psidOctets psid) :=
    holds_storeAll m wsmp fun o => psidOctets_lt
  have hsize := psidFieldSize_of_holds h hholds
  have hoctets := Mem.holds_iff_octets.mp hholds
  rw [length_psidOctets] at hsize hoctets
  simp only [wsmpAddPsid, if_neg (Nat.not_lt_of_le h), length_psidOctets]
  refine ⟨trivial, trivial, hoctets, ?_, hsize, wsmpDecodePsid_of_holds h hholds⟩
  rintro a (hlt | hle)
  · exact byte_storeAll_of_lt _ hlt
  · exact byte_storeAll_of_le _ (by rwa [length_psidOctets])

/-- The P-encoding of the PSIDs up to `MAX_PSID`: written and read back in the announced
length, prefix free, and in numeric order. -/
theorem psid_code :
    (∀ (m : Mem) (wsmp psid : Nat), psid ≤ maxPsid →
      let r := wsmpAddPsid m wsmp psid
      r.1 = some (wsmp + wsmPsidPcodedLen psid) ∧ r.2.1 = wsmPsidPcodedLen psid ∧
        r.2.2.octets wsmp (wsmPsidPcodedLen psid) = psidOctets psid ∧
        (∀ a, a < wsmp ∨ wsmp + wsmPsidPcodedLen psid ≤ a → r.2.2.byte a = m.byte a) ∧
        psidFieldSize (r.2.2.byte wsmp) = wsmPsidPcodedLen psid ∧
        wsmpDecodePsid r.2.2 wsmp = psid) ∧
    (∀ p q, p ≤ maxPsid → q ≤ maxPsid → psidOctets p <+: psidOctets q → p = q) ∧
    (∀ p q, p ≤ maxPsid → q ≤ maxPsid →
      (psidOctets p < psidOctets q ↔ p < q) ∧
      ((psidOctets p).length < (psidOctets q).length → p < q)) := by
  refine ⟨fun m wsmp psid h => wsmpAddPsid_spec m wsmp h, ?_, ?_⟩
  · intro p q hp hq hpre
    exact psidOctets_strictMonoOn.injOn hp hq
      (prefixFree_psidOctets _ ⟨p, hp, rfl⟩ _ ⟨q, hq, rfl⟩ hpre)
  · intro p q hp hq
    refine ⟨psidOctets_strictMonoOn.lt_iff_lt hp hq, ?_⟩
    intro hlen
    rw [length_psidOctets, length_psidOctets] at hlen
    by_contra hle
    have := wsmPsidPcodedLen_mono (Nat.le_of_not_gt hle)
    omega

theorem psid_code_boundaries :
    wsmpDecodePsid (wsmpAddPsid (fun _ => 0) 64 0x407f).2.2 64 = 0x407f ∧
      (psidOctets 0x407f <+: psidOctets 0x4080 → 0x407f = 0x4080) ∧
      psidOctets 0x407f < psidOctets 0x4080 :=
  ⟨(psid_code.1 (fun _ => 0) 64 0x407f (by decide)).2.2.2.2.2,
    psid_code.2.1 0x407f 0x4080 (by decide) (by decide),
    (psid_code.2.2 0x407f 0x4080 (by decide) (by decide)).1.mpr (by decide)⟩

end SatComm.Wsmp
