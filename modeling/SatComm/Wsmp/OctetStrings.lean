import SatComm.Asnbuf.LengthRoundTrip
import SatComm.Wsmp.Encode

/-!
# Octet strings at the tail

Behind whole octets `asn_ncat` copies. Behind a started octet it goes through the source in
words of four octets, but takes only four bits of each: the loop passes `4` to `asn_ncat_bits`,
a width in bits, and steps the pointer by four octets and the count by four bits. The lengths
agree, so the string is right only where the source happens to repeat itself.
-/

namespace SatComm.Wsmp

open Bits Asnbuf Abuf

/-! ## Windows of a memory -/

theorem bits_eq_iff_field_eq {m : Mem} {p q w : Nat} :
    m.bits p w = m.bits q w ↔ m.field p w = m.field q w := by
  constructor
  · intro h
    rw [Mem.field, Mem.field, h]
  · intro h
    have hp := toBits_ofBits (m.bits p w)
    have hq := toBits_ofBits (m.bits q w)
    rw [Mem.length_bits] at hp hq
    rw [← hp, ← hq]
    exact congrArg (toBits w) h

/-- The low bits of the number in a window are its last bits. -/
theorem toBits_field (m : Mem) (p v w : Nat) :
    toBits w (m.field p (v + w)) = m.bits (p + v) w := by
  have h := toBits_ofBits (m.bits p (v + w))
  rw [Mem.length_bits, toBits_add, Mem.bits_add] at h
  have hw := (List.append_inj h (by simp)).2
  rwa [← Mem.bits_add] at hw

/-! ## What the slow branch appends -/

/-- The bits of the slow branch for a source of `28 + 4 * k` bits: the last four of each of `k`
words, then the last 28 of the word behind them. -/
def slowBits (src : Mem) : Nat → Nat → List Bool
  | p, 0 => src.bits (8 * p + 4) 28
  | p, k + 1 => src.bits (8 * p + 28) 4 ++ slowBits src (p + 4) k

/-- The last, shorter round. -/
theorem appended_ncatWords_last (src : Mem) {fuel p r : Nat} {bp : Abuf} (hf : Fillable bp)
    (hfuel : 0 < fuel) (hr : 0 < r) (hr' : r < 32) (hroom : bp.tailPos + r ≤ 8 * bp.end_) :
    Appended bp (ncatWords src fuel p r bp) (src.bits (8 * p + (32 - r)) r) := by
  obtain ⟨fuel, rfl⟩ : ∃ i, fuel = i + 1 := ⟨fuel - 1, by omega⟩
  have happ := (asnNcatBits_spec hf (src.field (8 * p) 32) hr hroom).2.1
  have hbits := toBits_field src (8 * p) (32 - r) r
  rw [show 32 - r + r = 32 by omega] at hbits
  rw [ncatWords, if_neg (by omega), if_pos hr, ← hbits]
  exact happ

theorem appended_ncatWords (src : Mem) (k : Nat) {fuel p : Nat} {bp : Abuf} (hf : Fillable bp)
    (hfuel : k < fuel) (hroom : bp.tailPos + (28 + 4 * k) ≤ 8 * bp.end_) :
    Appended bp (ncatWords src fuel p (28 + 4 * k) bp) (slowBits src p k) := by
  induction k generalizing fuel p bp with
  | zero => exact appended_ncatWords_last src hf hfuel (by decide) (by decide) hroom
  | succ k ih =>
    obtain ⟨fuel, rfl⟩ : ∃ i, fuel = i + 1 := ⟨fuel - 1, by omega⟩
    obtain ⟨-, happ, hrdy, -⟩ :=
      asnNcatBits_spec hf (src.field (8 * p) 32) (w := 4) (by decide) (by omega)
    have hpos := happ.tailPos
    rw [length_toBits] at hpos
    have hbits := toBits_field src (8 * p) 28 4
    rw [ncatWords, if_pos (by omega), show 28 + 4 * (k + 1) - 4 = 28 + 4 * k by omega, slowBits,
      ← hbits]
    exact happ.trans (ih hrdy.toFillable (by omega) (by rw [hpos, happ.frame.end_]; omega))

/-! ## Where that is the source -/

/-- The source repeats itself where the slow branch looks: up to three octets are the last ones
of the word they start; of a longer source every half octet but the last seven is the lower half
of the last octet of its word, and the last seven are those of the word behind. -/
def Repeats (src : Mem) (p n : Nat) : Prop :=
  if n ≤ 3 then ∀ i < n, src.byte (p + i) = src.byte (p + (4 - n) + i)
  else
    (∀ i < 2 * n - 7, src.field (8 * p + 4 * i) 4 = src.field (8 * (p + 4 * i + 3) + 4) 4) ∧
      src.field (8 * p + 4 * (2 * n - 7)) 28 = src.field (8 * (p + 4 * (2 * n - 7)) + 4) 28

theorem bits_eq_slowBits_iff (src : Mem) (p q k : Nat) :
    src.bits q (28 + 4 * k) = slowBits src p k ↔
      (∀ i < k, src.field (q + 4 * i) 4 = src.field (8 * (p + 4 * i + 3) + 4) 4) ∧
        src.field (q + 4 * k) 28 = src.field (8 * (p + 4 * k) + 4) 28 := by
  induction k generalizing p q with
  | zero =>
    simp only [Nat.mul_zero, Nat.add_zero, Nat.not_lt_zero, false_imp_iff, implies_true, true_and]
    exact bits_eq_iff_field_eq
  | succ k ih =>
    have hsplit : src.bits q (28 + 4 * (k + 1)) = slowBits src p (k + 1) ↔
        src.bits q 4 = src.bits (8 * p + 28) 4 ∧
          src.bits (q + 4) (28 + 4 * k) = slowBits src (p + 4) k := by
      rw [slowBits, show 28 + 4 * (k + 1) = 4 + (28 + 4 * k) by omega, Mem.bits_add]
      constructor
      · intro h
        exact List.append_inj h (by simp)
      · rintro ⟨h₁, h₂⟩
        rw [h₁, h₂]
    rw [hsplit, ih, bits_eq_iff_field_eq]
    constructor
    · rintro ⟨hfirst, hrest, hlast⟩
      refine ⟨?_, ?_⟩
      · intro i hi
        cases i with
        | zero => exact hfirst
        | succ i =>
          have h := hrest i (by omega)
          rw [show q + 4 + 4 * i = q + 4 * (i + 1) by omega,
            show p + 4 + 4 * i = p + 4 * (i + 1) by omega] at h
          exact h
      · rw [show q + 4 + 4 * k = q + 4 * (k + 1) by omega,
          show p + 4 + 4 * k = p + 4 * (k + 1) by omega] at hlast
        exact hlast
    · rintro ⟨hall, hlast⟩
      refine ⟨hall 0 (by omega), ?_, ?_⟩
      · intro i hi
        rw [show q + 4 + 4 * i = q + 4 * (i + 1) by omega,
          show p + 4 + 4 * i = p + 4 * (i + 1) by omega]
        exact hall (i + 1) (by omega)
      · rw [show q + 4 + 4 * k = q + 4 * (k + 1) by omega,
          show p + 4 + 4 * k = p + 4 * (k + 1) by omega]
        exact hlast

theorem bits_octets_eq_iff {src : Mem} {a b n : Nat} :
    src.bits (8 * a) (8 * n) = src.bits (8 * b) (8 * n) ↔
      ∀ i < n, src.byte (a + i) = src.byte (b + i) := by
  have hoctets : src.bits (8 * a) (8 * n) = src.bits (8 * b) (8 * n) ↔
      src.octets a n = src.octets b n := by
    rw [Mem.bits_octets, Mem.bits_octets]
    constructor
    · intro h
      have hb : src.Holds a (src.octets b n) := by
        apply Mem.holds_of_bits (fun o => Mem.octets_lt)
        rw [Mem.length_octets, Mem.bits_octets, h]
      have heq := Mem.holds_iff_octets.mp hb
      rwa [Mem.length_octets] at heq
    · intro h
      rw [h]
  rw [hoctets, Mem.octets, Mem.octets, List.map_inj_left]
  simp only [List.mem_range]

/-- The bits of the source string are those the slow branch appends. -/
theorem slow_exact_iff {src : Mem} {p n : Nat} (hn : 0 < n) (bs : List Bool)
    (hbs : bs = if n ≤ 3 then src.bits (8 * p + (32 - 8 * n)) (8 * n)
      else slowBits src p (2 * n - 7)) :
    octetBits (src.octets p n) = bs ↔ Repeats src p n := by
  unfold Repeats
  rw [hbs, ← Mem.bits_octets]
  by_cases h3 : n ≤ 3
  · rw [if_pos h3, if_pos h3, show 8 * p + (32 - 8 * n) = 8 * (p + (4 - n)) by omega,
      bits_octets_eq_iff]
  · rw [if_neg h3, if_neg h3, show 8 * n = 28 + 4 * (2 * n - 7) by omega]
    exact bits_eq_slowBits_iff src p (8 * p) (2 * n - 7)

/-- A call behind a started octet. -/
theorem appended_asnNcat_started (src : Mem) {bp : Abuf} {p n : Nat} (hn : 0 < n)
    (hf : Fillable bp) (hpos : 0 < bp.tailBitsLeft) (h8 : bp.tailBitsLeft ≠ 8)
    (hroom : bp.tailPos + 8 * n ≤ 8 * bp.end_) :
    Appended bp (asnNcat src bp p n) (if n ≤ 3 then src.bits (8 * p + (32 - 8 * n)) (8 * n)
      else slowBits src p (2 * n - 7)) := by
  have hready : abufTailReady bp = bp := abufTailReady_eq_self hpos
  rw [asnNcat, if_pos hn]
  simp only [hready, if_neg h8]
  by_cases h3 : n ≤ 3
  · rw [if_pos h3, Nat.mul_comm n 8]
    exact appended_ncatWords_last src hf (by omega) (by omega) (by omega) hroom
  · rw [if_neg h3, show n * 8 = 28 + 4 * (2 * n - 7) by omega]
    exact appended_ncatWords src (2 * n - 7) hf (by omega) (by omega)

theorem appended_unique {bp bp' : Abuf} {xs ys : List Bool} (h : Appended bp bp' xs)
    (h' : Appended bp bp' ys) : xs = ys := by
  have hlen : xs.length = ys.length := by
    have h₁ := h.tailPos
    have h₂ := h'.tailPos
    omega
  rw [← h.new, ← h'.new, hlen]

theorem appended_asnNcat_iff (src : Mem) {bp : Abuf} {p n : Nat} (hn : 0 < n)
    (hf : Fillable bp) (hpos : 0 < bp.tailBitsLeft) (hroom : bp.tailPos + 8 * n ≤ 8 * bp.end_) :
    Appended bp (asnNcat src bp p n) (octetBits (src.octets p n)) ↔
      bp.tailBitsLeft = 8 ∨ Repeats src p n := by
  by_cases h8 : bp.tailBitsLeft = 8
  · have hroom' : bp.tail + n ≤ bp.end_ := by
      rw [tailPos, h8] at hroom
      omega
    exact iff_of_true (put_asnNcat src h8 hroom').appended (.inl h8)
  · have happ := appended_asnNcat_started src (p := p) hn hf hpos h8 hroom
    rw [← slow_exact_iff hn _ rfl]
    constructor
    · intro h
      exact .inr (appended_unique h happ)
    · rintro (h | h)
      · exact absurd h h8
      · rw [h]
        exact happ

/-- `n` calls of `asn_ncat_bits`, one for each octet. -/
theorem appended_ncatOctets (os : List Nat) {bp : Abuf} (hf : Fillable bp)
    (hroom : bp.tailPos + 8 * os.length ≤ 8 * bp.end_) :
    Appended bp (ncatOctets bp os) (octetBits os) := by
  induction os generalizing bp with
  | nil => exact .refl bp
  | cons o os ih =>
    rw [List.length_cons] at hroom
    obtain ⟨-, happ, hrdy, -⟩ := asnNcatBits_spec hf o (w := 8) (by decide) (by omega)
    have hpos := happ.tailPos
    rw [length_toBits] at hpos
    exact happ.trans (ih hrdy.toFillable (by rw [hpos, happ.frame.end_]; omega))

/-- A string of octets is appended, as the calls for its octets append it, iff the tail is at
the start of an octet or the source repeats itself where the slow branch looks. -/
theorem asnNcat_exact_iff (src : Mem) (bp : Abuf) (p n : Nat) (hn : 1 ≤ n) (hf : Fillable bp)
    (hpos : 1 ≤ bp.tailBitsLeft) (hroom : bp.tailPos + 8 * n ≤ 8 * bp.end_) :
    (Appended bp (asnNcat src bp p n) (octetBits (src.octets p n)) ↔
      bp.tailBitsLeft = 8 ∨ Repeats src p n) ∧
    Appended bp (ncatOctets bp (src.octets p n)) (octetBits (src.octets p n)) ∧
    (bp.startPos ≤ bp.tailPos →
      ((asnNcat src bp p n).bits = (ncatOctets bp (src.octets p n)).bits ↔
        bp.tailBitsLeft = 8 ∨ Repeats src p n)) := by
  have hcalls := appended_ncatOctets (src.octets p n) hf (by rwa [Mem.length_octets])
  refine ⟨appended_asnNcat_iff src hn hf hpos hroom, hcalls, ?_⟩
  intro hord
  rw [hcalls.bits hord]
  by_cases h8 : bp.tailBitsLeft = 8
  · have happ := (appended_asnNcat_iff src (p := p) hn hf hpos hroom).mpr (.inl h8)
    exact iff_of_true (happ.bits hord) (.inl h8)
  · have happ := appended_asnNcat_started src (p := p) hn hf hpos h8 hroom
    rw [happ.bits hord, List.append_cancel_left_eq, ← slow_exact_iff hn _ rfl, eq_comm]
    simp only [h8, false_or]

/-- The octets `1, 2, 3, ...`. -/
def counting : Mem := fun a => UInt8.ofNat (a + 1)

theorem asnNcat_exact_two :
    Appended threeBits (asnNcat (fun _ => 7) threeBits 0 2) (octetBits [7, 7]) := by
  have hrep : Repeats (fun _ => 7) 0 2 := by
    rw [Repeats, if_pos (by decide)]
    exact fun _ _ => rfl
  exact (asnNcat_exact_iff (fun _ => 7) threeBits 0 2 (by decide) fillable_threeBits (by decide)
    (by decide)).1.mpr (.inr hrep)

/-- Behind three bits, the octets `1, 2` come out as `3, 4`, and of `1, 2, 3, 4, 5` the first
four bits are those of the `4`. -/
theorem asnNcat_scrambles :
    ¬ Appended threeBits (asnNcat counting threeBits 0 2) (octetBits [1, 2]) ∧
      ¬ Appended threeBits (asnNcat counting threeBits 0 5) (octetBits [1, 2, 3, 4, 5]) := by
  have hshort : ¬ Repeats counting 0 2 := by
    intro h
    exact absurd (h 0 (by decide)) (by decide)
  have hlong : ¬ Repeats counting 0 5 := by
    intro h
    exact absurd (h.1 0 (by decide)) (by decide)
  refine ⟨?_, ?_⟩
  · intro h
    have := (appended_asnNcat_iff counting (p := 0) (n := 2) (by decide) fillable_threeBits
      (by decide) (by decide)).mp h
    exact this.elim (by decide) hshort
  · intro h
    have := (appended_asnNcat_iff counting (p := 0) (n := 5) (by decide) fillable_threeBits
      (by decide) (by decide)).mp h
    exact this.elim (by decide) hlong

end SatComm.Wsmp
