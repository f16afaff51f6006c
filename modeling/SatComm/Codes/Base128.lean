import SatComm.Codes.Prefix

/-!
# Base-128 numbers

A number is written in groups of seven bits, the most significant group first, one octet a
group. Bit 7 of an octet says that another one follows, so a word ends with its first octet
below 128 and the words are prefix free. A number has exactly one word that does not start
with an empty group.
-/

namespace Codes.Base128

/-- The octet of a group that another one follows. -/
def more (group : Nat) : Nat := 128 + group % 128

/-- The low `n` groups of `u`, each marked as not the last, least significant group first. -/
def groups : Nat → Nat → List Nat
  | 0, _ => []
  | n + 1, u => more u :: groups n (u / 128)

/-- The word of `v` in `n + 1` octets. -/
def spell (n v : Nat) : List Nat := (v % 128 :: groups n (v / 128)).reverse

/-- The number the groups of a word stand for. -/
def value (word : List Nat) : Nat := word.foldl (fun n o => 128 * n + o % 128) 0

/-- All octets but the last have bit 7 set, the last one has it clear. -/
def Terminated (word : List Nat) : Prop :=
  ∃ front last, word = front ++ [last] ∧ (∀ o ∈ front, 128 ≤ o) ∧ last < 128

/-- The word of `v` that does not start with an empty group. -/
structure Canonical (v : Nat) (word : List Nat) : Prop where
  octets : ∀ o ∈ word, o < 256
  terminated : Terminated word
  minimal : word.head? ≠ some 128
  value : value word = v

/-! ## The words -/

theorem mem_groups {n u o : Nat} (h : o ∈ groups n u) : 128 ≤ o ∧ o < 256 := by
  induction n generalizing u with
  | zero => exact absurd h List.not_mem_nil
  | succ n ih =>
    rcases List.mem_cons.mp h with rfl | h
    · unfold more
      omega
    · exact ih h

@[simp] theorem length_groups (n u : Nat) : (groups n u).length = n := by
  induction n generalizing u with
  | zero => rfl
  | succ n ih => rw [groups, List.length_cons, ih]

@[simp] theorem length_spell (n v : Nat) : (spell n v).length = n + 1 := by simp [spell]

theorem terminated_spell (n v : Nat) : Terminated (spell n v) := by
  refine ⟨(groups n (v / 128)).reverse, v % 128, by rw [spell, List.reverse_cons], ?_, by omega⟩
  intro o ho
  exact (mem_groups (List.mem_reverse.mp ho)).1

theorem spell_ne_nil (n v : Nat) : spell n v ≠ [] := by simp [spell]

theorem mem_spell {n v o : Nat} (h : o ∈ spell n v) : o < 256 := by
  rcases List.mem_cons.mp (List.mem_reverse.mp h) with rfl | h
  · omega
  · exact (mem_groups h).2

/-- Two terminated words, one the front of the other, are the same word: the first octet
below 128 ends both. -/
theorem Terminated.unique {u w : List Nat} (hu : Terminated u) (hw : Terminated w)
    (h : u <+: w) : u = w := by
  obtain ⟨front, last, rfl, -, hlast⟩ := hu
  obtain ⟨front', last', rfl, hfront', -⟩ := hw
  rcases List.prefix_concat_iff.mp h with heq | hp
  · exact heq
  · have hmem : last ∈ front' := hp.subset (List.mem_append_right front (List.mem_singleton_self _))
    have := hfront' last hmem
    omega

theorem prefixFree {S : Set (List Nat)} (h : ∀ w ∈ S, Terminated w) : PrefixFree S :=
  fun u hu w hw hp => (h u hu).unique (h w hw) hp

/-! ## Their values -/

theorem value_append_singleton (w : List Nat) (o : Nat) :
    value (w ++ [o]) = 128 * value w + o % 128 := by simp [value]

theorem value_groups (n u : Nat) : value (groups n u).reverse = u % 128 ^ n := by
  induction n generalizing u with
  | zero => simp [groups, value, Nat.mod_one]
  | succ n ih =>
    have hmore : more u % 128 = u % 128 := by
      unfold more
      omega
    rw [groups, List.reverse_cons, value_append_singleton, ih, hmore, Nat.pow_succ',
      Nat.mod_mul, Nat.add_comm]

theorem value_spell (n v : Nat) : value (spell n v) = v % 128 ^ (n + 1) := by
  rw [spell, List.reverse_cons, value_append_singleton, value_groups, Nat.mod_mod,
    Nat.pow_succ', Nat.mod_mul, Nat.add_comm]

/-- The first octet of a word of two octets or more holds the highest group. -/
theorem head?_spell_succ (n v : Nat) :
    (spell (n + 1) v).head? = some (more (v / 128 ^ (n + 1))) := by
  have hlast : ∀ n u, (groups (n + 1) u).getLast? = some (more (u / 128 ^ n)) := by
    intro n
    induction n with
    | zero => intro u; simp [groups]
    | succ n ih =>
      intro u
      rw [groups, groups, List.getLast?_cons_cons, ← groups, ih, Nat.div_div_eq_div_mul,
        ← Nat.pow_succ']
  rw [spell, List.head?_reverse, groups, List.getLast?_cons_cons, ← groups, hlast,
    Nat.div_div_eq_div_mul, ← Nat.pow_succ']

/-- The word of `v` in `n + 1` octets is the canonical one iff that many are needed and
enough. -/
theorem canonical_spell_iff {n v : Nat} :
    Canonical v (spell n v) ↔ v < 128 ^ (n + 1) ∧ (n = 0 ∨ 128 ^ n ≤ v) := by
  have hhead : v < 128 ^ (n + 1) → ((spell n v).head? ≠ some 128 ↔ n = 0 ∨ 128 ^ n ≤ v) := by
    intro hv
    cases n with
    | zero =>
      have : v % 128 ≠ 128 := by omega
      simpa [spell, groups] using this
    | succ n =>
      have hq : v / 128 ^ (n + 1) < 128 := by
        rw [Nat.div_lt_iff_lt_mul (by positivity), ← Nat.pow_succ']
        exact hv
      have hpos : 0 < v / 128 ^ (n + 1) ↔ 128 ^ (n + 1) ≤ v := by
        rw [Nat.div_pos_iff]
        exact and_iff_right (by positivity)
      rw [head?_spell_succ, more, Nat.mod_eq_of_lt hq, ← hpos]
      generalize v / 128 ^ (n + 1) = q
      simp
  constructor
  · intro h
    have hv : v < 128 ^ (n + 1) := by
      have hmod := h.value
      rw [value_spell] at hmod
      exact hmod ▸ Nat.mod_lt v (by positivity)
    exact ⟨hv, (hhead hv).mp h.minimal⟩
  · rintro ⟨hv, hn⟩
    exact ⟨fun o => mem_spell, terminated_spell n v, (hhead hv).mpr hn,
      by rw [value_spell, Nat.mod_eq_of_lt hv]⟩

end Codes.Base128
