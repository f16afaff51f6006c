import SatComm.Asnbuf.Length

/-!
# Parsers over a received message

The message parsers walk forward: they take fields with `get_next_n_bits` and lengths with
`parse_asn_variable_length_enc`, compare the bytes that are left with what comes next before
some of the fields, and leave through an error label. A `Reader` is such a walk, and
`Reader.exec` runs it on the byte pointer, the `bits_left` and the `save_bits_left` that the
source keeps. `seen` is bookkeeping that nothing reads: the addresses that were looked at.

`Reader.announced` is the same walk over bit positions in a message that never ends: the fields
the bits ask for, and between them the checks the parser makes. `exec_inside_iff` says when the
parser stays in front of the end of the message: the first item that does not fit has to be a
check. `Reader.Yields` is the rule set for what a reader returns.
-/

namespace SatComm.Asnbuf

open Bits

/-! ## The code -/

/-- A walk over a message with a result in `α`. -/
inductive Reader (α : Type) : Type
  | done (a : α)
  /-- `goto` an error label. -/
  | stop
  /-- `get_next_n_bits`. -/
  | get (n : Nat) (hn : 0 < n ∧ n ≤ 32) (k : Nat → Reader α)
  /-- `parse_asn_variable_length_enc`. -/
  | length (k : Int → Reader α)
  /-- `if ((last_byte_p - p8) < bytes) goto` an error label; the number may depend on
  `bits_left`. -/
  | need (bytes : Nat → Nat) (k : Reader α)
  /-- `save_bits_left = bits_left`. -/
  | save (k : Reader α)
  /-- Go on where `bits_left` is `save_bits_left` again. -/
  | restore (k : Reader α)

/-- The result, `none` for an error label, and the addresses looked at. -/
structure Reading (α : Type) where
  result : Option α
  seen : List Nat

namespace Reading

def see {α : Type} (ps : List Nat) (r : Reading α) : Reading α := { r with seen := ps ++ r.seen }

@[simp] theorem see_result {α : Type} (ps : List Nat) (r : Reading α) :
    (r.see ps).result = r.result := rfl

@[simp] theorem see_seen {α : Type} (ps : List Nat) (r : Reading α) :
    (r.see ps).seen = ps ++ r.seen := rfl

end Reading

/-- The addresses one `get_next_n_bits` looks at. -/
def seenBy (c : Cursor) (n : Nat) : List Nat := List.range' c.cp (addtlBytesNeeded c n + 1)

/-- The addresses `parse_asn_variable_length_enc` looks at: a second octet only in the form that
has one. On an octet boundary this is one address for each octet. -/
def seenByLength (m : Mem) (c : Cursor) : List Nat :=
  let (byte1, c') := getNextNBits m c 8
  seenBy c 8 ++ if 128 ≤ byte1 ∧ byte1 < 192 then seenBy c' 8 else []

/-- The end of an open type: the next position at which `saved` bits of the byte are left. -/
def Cursor.realign (c : Cursor) (saved : Nat) : Cursor :=
  if saved ≤ c.bitsLeft then ⟨c.cp, saved⟩ else ⟨c.cp + 1, saved⟩

namespace Reader

variable {α β : Type}

def bind : Reader α → (α → Reader β) → Reader β
  | done a, f => f a
  | stop, _ => stop
  | get n hn k, f => get n hn fun v => (k v).bind f
  | length k, f => length fun v => (k v).bind f
  | need g k, f => need g (k.bind f)
  | save k, f => save (k.bind f)
  | restore k, f => restore (k.bind f)

instance : Monad Reader where
  pure := done
  bind := bind

/-- A field of `n` bits. -/
def bits (n : Nat) (hn : 0 < n ∧ n ≤ 32 := by decide) : Reader Nat := get n hn done

/-- A length. -/
def len : Reader Int := length done

/-- The check before a field: `calc_bytes_needed_for_n_more_bits` bytes have to follow. -/
def needBits (n : Nat) : Reader Unit := need (calcBytesNeededForNMoreBits n) (done ())

/-- A number of bytes has to follow. -/
def needBytes (n : Nat) : Reader Unit := need (fun _ => n) (done ())

/-- A part of the message that an option bit announces. -/
def optional (c : Prop) [Decidable c] (absent : α) (x : Reader α) : Reader α :=
  if c then x else done absent

/-- The loop over the elements of a sequence. -/
def forEach (x : β → Reader α) : List β → Reader (List α)
  | [] => pure []
  | i :: is => do
    let a ← x i
    let as ← forEach x is
    pure (a :: as)

/-- A run on a message whose last byte is at `last`. -/
def exec (m : Mem) (last : Nat) : Reader α → Cursor → Nat → Reading α
  | done a, _, _ => ⟨some a, []⟩
  | stop, _, _ => ⟨none, []⟩
  | get n _ k, c, saved =>
    let (v, c') := getNextNBits m c n
    (exec m last (k v) c' saved).see (seenBy c n)
  | length k, c, saved =>
    let (v, c') := parseAsnVariableLengthEnc m c
    (exec m last (k v) c' saved).see (seenByLength m c)
  | need g k, c, saved =>
    if (last : Int) - c.cp < g c.bitsLeft then ⟨none, []⟩ else exec m last k c saved
  | save k, c, _ => exec m last k c c.bitsLeft
  | restore k, c, saved => exec m last k (c.realign saved) saved

end Reader

theorem Reader.exec_needBits {β : Type} (m : Mem) (last n : Nat) (f : Unit → Reader β) (c : Cursor)
    (saved : Nat) : (Reader.needBits n >>= f).exec m last c saved =
      if (last : Int) - c.cp < calcBytesNeededForNMoreBits n c.bitsLeft then ⟨none, []⟩
      else (f ()).exec m last c saved := rfl

/-! ## Positions instead of pointers -/

/-- One past the last byte that a field of `n` bits at position `p` makes the reader look at. A
field that leaves its first byte and ends with a byte takes the byte behind it too. -/
def reach (p n : Nat) : Nat := if p % 8 + n ≤ 8 then p / 8 + 1 else (p + n) / 8 + 1

theorem le_reach (p n : Nat) : p + n ≤ 8 * reach p n := by
  unfold reach
  split <;> omega

theorem Cursor.Valid.cp_eq {c : Cursor} (h : c.Valid) : c.cp = c.pos / 8 := by
  obtain ⟨h₁, h₂⟩ := h
  simp only [Cursor.pos]
  omega

theorem Cursor.Valid.bitsLeft_eq {c : Cursor} (h : c.Valid) : c.bitsLeft = 8 - c.pos % 8 := by
  obtain ⟨h₁, h₂⟩ := h
  simp only [Cursor.pos]
  omega

theorem Cursor.valid_octet (cp : Nat) : (⟨cp, 8⟩ : Cursor).Valid := ⟨Nat.succ_pos 7, le_rfl⟩

theorem seenBy_inside_iff {c : Cursor} (hc : c.Valid) {n : Nat} (hn : n ≤ 32) (E : Nat) :
    (∀ x ∈ seenBy c n, x < E) ↔ reach c.pos n ≤ E := by
  have hend : c.cp + (addtlBytesNeeded c n + 1) = reach c.pos n := by
    obtain ⟨h₁, h₂⟩ := hc
    unfold addtlBytesNeeded calcBytesNeededForNMoreBits reach Cursor.pos
    split
    · rw [if_neg (by omega)]
      omega
    · rw [if_pos (by omega)]
      omega
  rw [← hend]
  constructor
  · intro h
    have := h (c.cp + addtlBytesNeeded c n) (by simp [seenBy, List.mem_range'])
    omega
  · intro h x hx
    simp only [seenBy, List.mem_range'_1] at hx
    omega

/-- The value of a length at position `p`; `-1` for a fragmented one. -/
def lengthAt (m : Mem) (p : Nat) : Int :=
  if m.field p 8 < 128 then m.field p 8
  else if m.field p 8 < 192 then ((m.field p 8 - 128) * 256 + m.field (p + 8) 8 : Nat)
  else -1

/-- The position behind a length. A fragmented one on an octet boundary is not passed. -/
def lengthNext (m : Mem) (p : Nat) : Nat :=
  if m.field p 8 < 128 then p + 8
  else if m.field p 8 < 192 then p + 16
  else if p % 8 = 0 then p else p + 8

theorem parseAsnVariableLengthEnc_spec (m : Mem) {c : Cursor} (hc : c.Valid) :
    (parseAsnVariableLengthEnc m c).1 = lengthAt m c.pos ∧
      (parseAsnVariableLengthEnc m c).2.Valid ∧
      (parseAsnVariableLengthEnc m c).2.pos = lengthNext m c.pos := by
  by_cases h8 : c.bitsLeft = 8
  -- on an octet boundary
  · obtain ⟨cp, bl⟩ := c
    obtain rfl : bl = 8 := h8
    have hpos : (⟨cp, 8⟩ : Cursor).pos = 8 * cp := rfl
    have hfst : m.field (8 * cp) 8 = m.byte cp := m.field_byte cp
    have hsnd : m.field (8 * cp + 8) 8 = m.byte (cp + 1) := m.field_byte (cp + 1)
    rw [parseAsnVariableLengthEnc_aligned, hpos, lengthAt, lengthNext, hfst, hsnd]
    split
    · exact ⟨rfl, Cursor.valid_octet _, by simp only [Cursor.pos]; omega⟩
    · split
      · exact ⟨rfl, Cursor.valid_octet _, by simp only [Cursor.pos]; omega⟩
      · rw [if_pos (by omega)]
        exact ⟨rfl, Cursor.valid_octet _, hpos⟩
  · obtain ⟨hval, hc', hpos⟩ := getNextNBits_spec m hc (n := 8) (by decide) (by decide)
    obtain ⟨hval', hc'', hpos'⟩ := getNextNBits_spec m hc' (n := 8) (by decide) (by decide)
    have hlt : m.field c.pos 8 < 256 := m.field_lt _ _
    have hmod : c.pos % 8 ≠ 0 := by
      have := hc.bitsLeft_eq
      omega
    rw [hpos] at hval' hpos'
    rw [parseAsnVariableLengthEnc, if_neg (by have := hc.2; omega)]
    simp only [hval, lengthAt, lengthNext]
    by_cases h1 : m.field c.pos 8 < 128
    · rw [if_pos h1, if_pos h1, if_pos h1]
      exact ⟨rfl, hc', hpos⟩
    · rw [if_neg h1, if_neg h1, if_neg h1]
      by_cases h2 : m.field c.pos 8 < 192
      · rw [if_neg (by rw [and_next_ne_zero hlt (by omega)]; omega), if_pos h2, if_pos h2]
        refine ⟨?_, hc'', by omega⟩
        rw [hval', and_seven_f, ← Nat.shiftLeft_add_eq_or_of_lt (m.field_lt _ _),
          Nat.shiftLeft_eq]
        omega
      · rw [if_pos (by rw [and_next_ne_zero hlt (by omega)]; omega), if_neg h2, if_neg h2,
          if_neg hmod]
        exact ⟨rfl, hc', hpos⟩

theorem Cursor.realign_spec (c : Cursor) {saved : Nat} (hs : 0 < saved ∧ saved ≤ 8) :
    (c.realign saved).Valid := by
  unfold Cursor.realign
  split <;> exact hs

/-- The position behind an open type. -/
def realignPos (p saved : Nat) : Nat :=
  if saved ≤ 8 - p % 8 then 8 * (p / 8) + (8 - saved) else 8 * (p / 8) + 8 + (8 - saved)

theorem Cursor.Valid.pos_realign {c : Cursor} (hc : c.Valid) (saved : Nat) :
    (c.realign saved).pos = realignPos c.pos saved := by
  unfold Cursor.realign realignPos
  rw [← hc.bitsLeft_eq, ← hc.cp_eq]
  split
  · rfl
  · simp only [Cursor.pos]
    omega

/-! ## What a message announces -/

/-- A field, or a check for bytes behind the one at `p`. -/
inductive Item where
  | field (p n : Nat)
  | need (p bytes : Nat)
deriving DecidableEq, Repr

namespace Reader

variable {α β : Type}

/-- The octets of a length, as fields. -/
def lengthItems (m : Mem) (p : Nat) : List Item :=
  if 128 ≤ m.field p 8 ∧ m.field p 8 < 192 then [.field p 8, .field (p + 8) 8] else [.field p 8]

/-- The walk over a message without an end: every check is passed. -/
def announced (m : Mem) : Reader α → Nat → Nat → List Item
  | done _, _, _ => []
  | stop, _, _ => []
  | get n _ k, p, saved => .field p n :: announced m (k (m.field p n)) (p + n) saved
  | length k, p, saved =>
    lengthItems m p ++ announced m (k (lengthAt m p)) (lengthNext m p) saved
  | need g k, p, saved => .need p (g (8 - p % 8)) :: announced m k p saved
  | save k, p, _ => announced m k p (8 - p % 8)
  | restore k, p, saved => announced m k (realignPos p saved) saved

end Reader

/-- One past the last bit of the announced fields. -/
def fieldsEnd : List Item → Nat
  | [] => 0
  | .field p n :: items => max (p + n) (fieldsEnd items)
  | .need _ _ :: items => fieldsEnd items

/-- The first item that does not fit in front of byte `E` is a check. -/
def Guarded (E : Nat) : List Item → Prop
  | [] => True
  | .field p n :: items => reach p n ≤ E ∧ Guarded E items
  | .need p bytes :: items => p / 8 + bytes < E → Guarded E items

instance decidableGuarded (E : Nat) : (items : List Item) → Decidable (Guarded E items)
  | [] => isTrue trivial
  | .field _ _ :: items =>
    have := decidableGuarded E items
    inferInstanceAs (Decidable (_ ∧ _))
  | .need _ _ :: items =>
    have := decidableGuarded E items
    inferInstanceAs (Decidable (_ → _))

theorem forall_mem_append {ps qs : List Nat} {E : Nat} :
    (∀ x ∈ ps ++ qs, x < E) ↔ (∀ x ∈ ps, x < E) ∧ ∀ x ∈ qs, x < E := by
  simp only [List.mem_append, or_imp, forall_and]

theorem seenByLength_inside_iff (m : Mem) {c : Cursor} (hc : c.Valid) (E : Nat)
    (items : List Item) :
    ((∀ x ∈ seenByLength m c, x < E) ∧ Guarded E items) ↔
      Guarded E (Reader.lengthItems m c.pos ++ items) := by
  obtain ⟨hval, hc', hpos⟩ := getNextNBits_spec m hc (n := 8) (by decide) (by decide)
  unfold seenByLength Reader.lengthItems
  simp only [hval]
  rw [forall_mem_append, seenBy_inside_iff hc (by decide)]
  split
  · rw [seenBy_inside_iff hc' (by decide), hpos]
    simp only [List.cons_append, List.nil_append, Guarded, and_assoc]
  · simp [Guarded]

namespace Reader

variable {α β : Type}

/-- The parser stays in front of the end exactly when the first item that does not fit is a
check. -/
theorem exec_inside_iff (m : Mem) (last : Nat) (x : Reader α) {c : Cursor} (hc : c.Valid)
    {saved : Nat} (hs : 0 < saved ∧ saved ≤ 8) :
    (∀ a ∈ (x.exec m last c saved).seen, a < last + 1) ↔
      Guarded (last + 1) (x.announced m c.pos saved) := by
  induction x generalizing c saved with
  | done a => simp [exec, announced, Guarded]
  | stop => simp [exec, announced, Guarded]
  | get n hn k ih =>
    obtain ⟨hval, hc', hpos⟩ := getNextNBits_spec m hc hn.1 hn.2
    simp only [exec, announced, Guarded, Reading.see_seen]
    rw [forall_mem_append, seenBy_inside_iff hc hn.2, ih _ hc' hs, hval, hpos]
  | length k ih =>
    obtain ⟨hval, hc', hpos⟩ := parseAsnVariableLengthEnc_spec m hc
    simp only [exec, announced, Reading.see_seen]
    rw [forall_mem_append, ih _ hc' hs, hval, hpos, seenByLength_inside_iff m hc]
  | need g k ih =>
    simp only [exec, announced, Guarded]
    rw [← hc.bitsLeft_eq, ← hc.cp_eq]
    split
    · rename_i hshort
      constructor
      · intro _ h
        omega
      · simp
    · rename_i henough
      rw [ih hc hs]
      exact ⟨fun h _ => h, fun h => h (by omega)⟩
  | save k ih =>
    simp only [exec, announced]
    rw [← hc.bitsLeft_eq, ih hc hc]
  | restore k ih =>
    simp only [exec, announced]
    rw [← hc.pos_realign, ih (c.realign_spec hs) hs]

theorem fieldsEnd_lengthItems (m : Mem) (p E : Nat) (items : List Item)
    (h : Guarded E (lengthItems m p ++ items)) (hrest : fieldsEnd items ≤ 8 * E) :
    fieldsEnd (lengthItems m p ++ items) ≤ 8 * E := by
  have h₁ := le_reach p 8
  have h₂ := le_reach (p + 8) 8
  unfold lengthItems at *
  by_cases htwo : 128 ≤ m.field p 8 ∧ m.field p 8 < 192
  · simp only [if_pos htwo, List.cons_append, List.nil_append, Guarded, fieldsEnd] at *
    omega
  · simp only [if_neg htwo, List.cons_append, List.nil_append, Guarded, fieldsEnd] at *
    omega

/-- A parser that stays inside and does not leave through an error label has seen every field
that is announced. -/
theorem fieldsEnd_le_of_guarded (m : Mem) (last : Nat) (x : Reader α) {c : Cursor}
    (hc : c.Valid) {saved : Nat} (hs : 0 < saved ∧ saved ≤ 8)
    (hg : Guarded (last + 1) (x.announced m c.pos saved))
    (hr : (x.exec m last c saved).result ≠ none) :
    fieldsEnd (x.announced m c.pos saved) ≤ 8 * (last + 1) := by
  induction x generalizing c saved with
  | done a => simp [announced, fieldsEnd]
  | stop => simp [announced, fieldsEnd]
  | get n hn k ih =>
    obtain ⟨hval, hc', hpos⟩ := getNextNBits_spec m hc hn.1 hn.2
    simp only [exec, announced, Guarded, fieldsEnd, Reading.see_result] at *
    have hrest := ih _ hc' hs (by rw [hval, hpos]; exact hg.2) hr
    rw [hval, hpos] at hrest
    have hend := le_reach c.pos n
    omega
  | length k ih =>
    obtain ⟨hval, hc', hpos⟩ := parseAsnVariableLengthEnc_spec m hc
    simp only [exec, announced, Reading.see_result] at *
    have hg' := ((seenByLength_inside_iff m hc _ _).mpr hg).2
    have hrest := ih _ hc' hs (by rw [hval, hpos]; exact hg') hr
    rw [hval, hpos] at hrest
    exact fieldsEnd_lengthItems m c.pos _ _ hg hrest
  | need g k ih =>
    simp only [exec, announced, Guarded, fieldsEnd] at *
    rw [← hc.bitsLeft_eq, ← hc.cp_eq] at hg
    split at hr
    · exact absurd rfl hr
    · exact ih hc hs (hg (by omega)) hr
  | save k ih =>
    simp only [exec, announced] at *
    rw [← hc.bitsLeft_eq] at hg ⊢
    exact ih hc hc hg hr
  | restore k ih =>
    simp only [exec, announced] at *
    rw [← hc.pos_realign] at hg ⊢
    exact ih (c.realign_spec hs) hs hg hr

/-! ## What a reader returns -/

/-- The run on positions: the result, the position behind it and the saved `bits_left`. -/
def eval (m : Mem) (last : Nat) : Reader α → Nat → Nat → Option (α × Nat × Nat)
  | done a, p, saved => some (a, p, saved)
  | stop, _, _ => none
  | get n _ k, p, saved => eval m last (k (m.field p n)) (p + n) saved
  | length k, p, saved => eval m last (k (lengthAt m p)) (lengthNext m p) saved
  | need g k, p, saved => if p / 8 + g (8 - p % 8) ≤ last then eval m last k p saved else none
  | save k, p, _ => eval m last k p (8 - p % 8)
  | restore k, p, saved => eval m last k (realignPos p saved) saved

theorem exec_result (m : Mem) (last : Nat) (x : Reader α) {c : Cursor} (hc : c.Valid)
    {saved : Nat} (hs : 0 < saved ∧ saved ≤ 8) :
    (x.exec m last c saved).result = (x.eval m last c.pos saved).map Prod.fst := by
  induction x generalizing c saved with
  | done a => rfl
  | stop => rfl
  | get n hn k ih =>
    obtain ⟨hval, hc', hpos⟩ := getNextNBits_spec m hc hn.1 hn.2
    simp only [exec, eval, Reading.see_result]
    rw [ih _ hc' hs, hval, hpos]
  | length k ih =>
    obtain ⟨hval, hc', hpos⟩ := parseAsnVariableLengthEnc_spec m hc
    simp only [exec, eval, Reading.see_result]
    rw [ih _ hc' hs, hval, hpos]
  | need g k ih =>
    simp only [exec, eval]
    rw [← hc.bitsLeft_eq, ← hc.cp_eq]
    by_cases henough : c.cp + g c.bitsLeft ≤ last
    · rw [if_neg (by omega), if_pos henough, ih hc hs]
    · rw [if_pos (by omega), if_neg henough]
      rfl
  | save k ih =>
    simp only [exec, eval]
    rw [← hc.bitsLeft_eq, ih hc hc]
  | restore k ih =>
    simp only [exec, eval]
    rw [← hc.pos_realign, ih (c.realign_spec hs) hs]

theorem eval_bind (m : Mem) (last : Nat) (x : Reader α) (f : α → Reader β) (p saved : Nat) :
    (x >>= f).eval m last p saved =
      (x.eval m last p saved).bind fun r => (f r.1).eval m last r.2.1 r.2.2 := by
  change (x.bind f).eval m last p saved = _
  induction x generalizing p saved with
  | done a => rfl
  | stop => rfl
  | get n hn k ih => exact ih _ _ _
  | length k ih => exact ih _ _ _
  | need g k ih =>
    simp only [bind, eval]
    split
    · exact ih p saved
    · rfl
  | save k ih => exact ih _ _
  | restore k ih => exact ih _ _

end Reader

/-- The message carries the fields from position `p` on. -/
def Carries (m : Mem) (p : Nat) (fields : List Field) : Prop :=
  m.bits p (fieldWidth fields) = fieldBits fields

theorem carries_append {m : Mem} {p : Nat} {fs gs : List Field} :
    Carries m p (fs ++ gs) ↔ Carries m p fs ∧ Carries m (p + fieldWidth fs) gs := by
  unfold Carries
  rw [fieldWidth_append, fieldBits_append, Mem.bits_add]
  constructor
  · intro h
    exact List.append_inj h (by simp)
  · rintro ⟨h₁, h₂⟩
    rw [h₁, h₂]

theorem Carries.field_eq {m : Mem} {p n v : Nat} {fs : List Field} (h : Carries m p (⟨n, v⟩ :: fs))
    (hv : v < 2 ^ n) : m.field p n = v ∧ Carries m (p + n) fs := by
  obtain ⟨h₁, h₂⟩ := (@carries_append m p [⟨n, v⟩] fs).mp h
  refine ⟨?_, by simpa [fieldWidth] using h₂⟩
  rw [Mem.field_eq_of_bits m (by simpa [Carries, fieldWidth, fieldBits] using h₁),
    Nat.mod_eq_of_lt hv]

namespace Reader

variable {α β : Type} {m : Mem} {last p : Nat}

/-- Where the message carries the fields `fs` from `p` on, the reader takes exactly these and
returns a value in `Q`. -/
def Parses (m : Mem) (last : Nat) (x : Reader α) (p : Nat) (fs : List Field) (Q : α → Prop) :
    Prop :=
  Carries m p fs → ∀ saved, ∃ a, x.eval m last p saved = some (a, p + fieldWidth fs, saved) ∧ Q a

theorem parses_pure {a : α} {Q : α → Prop} (h : Q a) : Parses m last (pure a) p [] Q :=
  fun _ _ => ⟨a, rfl, h⟩

theorem Parses.mono {x : Reader α} {fs : List Field} {Q R : α → Prop}
    (h : Parses m last x p fs Q) (hQR : ∀ a, Q a → R a) : Parses m last x p fs R := by
  intro hc saved
  obtain ⟨a, ha, hQ⟩ := h hc saved
  exact ⟨a, ha, hQR a hQ⟩

theorem Parses.bind {x : Reader α} {f : α → Reader β} {fs gs : List Field} {Q : α → Prop}
    {R : β → Prop} (hx : Parses m last x p fs Q)
    (hf : ∀ a, Q a → Parses m last (f a) (p + fieldWidth fs) gs R) :
    Parses m last (x >>= f) p (fs ++ gs) R := by
  intro hc saved
  obtain ⟨h₁, h₂⟩ := carries_append.mp hc
  obtain ⟨a, ha, hQ⟩ := hx h₁ saved
  obtain ⟨b, hb, hR⟩ := hf a hQ h₂ saved
  refine ⟨b, ?_, hR⟩
  rw [eval_bind, ha, fieldWidth_append, ← Nat.add_assoc]
  exact hb

/-- One field. -/
theorem parses_bits {n v : Nat} {hn : 0 < n ∧ n ≤ 32} {f : Nat → Reader β} {fs : List Field}
    {R : β → Prop} (hv : v < 2 ^ n) (hf : Parses m last (f v) (p + n) fs R) :
    Parses m last (bits n hn >>= f) p (⟨n, v⟩ :: fs) R := by
  intro hc saved
  obtain ⟨hfield, hc'⟩ := hc.field_eq hv
  obtain ⟨b, hb, hR⟩ := hf hc' saved
  refine ⟨b, ?_, hR⟩
  rw [eval_bind, fieldWidth_cons, ← Nat.add_assoc]
  simp only [bits, eval, Option.bind_some, hfield]
  exact hb

/-- The last part. -/
theorem Parses.finish {x : Reader α} {g : α → β} {fs : List Field} {Q : α → Prop} {R : β → Prop}
    (hx : Parses m last x p fs Q) (hg : ∀ a, Q a → R (g a)) :
    Parses m last (x >>= fun a => pure (g a)) p fs R := by
  have h := hx.bind fun a ha => parses_pure (hg a ha)
  rwa [List.append_nil] at h

/-- A part with an option bit. -/
theorem parses_optional {c : Prop} [Decidable c] {x : Reader α} {absent : α} {fs : List Field}
    {Q : α → Prop} (hx : c → Parses m last x p fs Q) :
    Parses m last (optional c absent x) p (if c then fs else [])
      fun a => (c → Q a) ∧ (¬ c → a = absent) := by
  unfold optional
  by_cases h : c
  · rw [if_pos h, if_pos h]
    exact (hx h).mono fun a ha => ⟨fun _ => ha, fun hc => absurd h hc⟩
  · rw [if_neg h, if_neg h]
    exact parses_pure ⟨fun hc => absurd hc h, fun _ => rfl⟩

/-- A check that is passed. -/
theorem parses_need {g : Nat → Nat} {f : Unit → Reader β} {fs : List Field} {R : β → Prop}
    (henough : p / 8 + g (8 - p % 8) ≤ last) (hf : Parses m last (f ()) p fs R) :
    Parses m last (need g (done ()) >>= f) p fs R := by
  intro hc saved
  obtain ⟨b, hb, hR⟩ := hf hc saved
  refine ⟨b, ?_, hR⟩
  rw [eval_bind]
  simp only [eval, if_pos henough, Option.bind_some]
  exact hb

/-- A check for a field that is there. Only a field that ends in front of the end of its byte can
be there and be missed. -/
theorem parses_needBits {n : Nat} {f : Unit → Reader β} {fs : List Field} {R : β → Prop}
    (hn : n ≤ 32) (hleft : 8 - p % 8 ≤ n ∨ p / 8 < last) (hend : (p + n) / 8 ≤ last)
    (hf : Parses m last (f ()) p fs R) : Parses m last (needBits n >>= f) p fs R := by
  refine parses_need ?_ hf
  unfold calcBytesNeededForNMoreBits
  omega

/-- The elements of a sequence. -/
theorem parses_forEach {γ : Type} {x : γ → Reader α} {fields : γ → List Field}
    {Q : γ → α → Prop} (is : List γ)
    (hx : ∀ i ∈ is, ∀ p, Parses m last (x i) p (fields i) (Q i)) :
    Parses m last (forEach x is) p (is.flatMap fields) (List.Forall₂ Q is) := by
  induction is generalizing p with
  | nil => exact parses_pure .nil
  | cons i is ih =>
    rw [List.flatMap_cons]
    refine (hx i (by simp) p).bind fun a ha => ?_
    have hrest : Parses m last (forEach x is >>= fun as => pure (a :: as))
        (p + fieldWidth (fields i)) (is.flatMap fields ++ []) (List.Forall₂ Q (i :: is)) :=
      (ih fun i' hi' => hx i' (by simp [hi'])).bind fun as has => parses_pure (.cons ha has)
    rwa [List.append_nil] at hrest

end Reader

end SatComm.Asnbuf
