import SatComm.Asnbuf.Reader
import SatComm.Asnbuf.Merge

/-!
# Reading open types

An open type is a length, the content and the padding behind it. A reader takes the length, keeps
`bits_left`, reads the content and goes on where `bits_left` is the same again. That is the end of
the padding when the content it reads has as many octets as the content that was written.
-/

namespace SatComm.Asnbuf

open Bits

/-- A length where a writer left one. -/
theorem lengthAt_lengthFields {m : Mem} {p len : Nat} (hlt : len < 0x2000)
    (h : Carries m p (lengthFields len)) :
    lengthAt m p = len ∧ lengthNext m p = p + fieldWidth (lengthFields len) := by
  unfold lengthAt lengthNext
  by_cases hone : len < 0x80
  · rw [lengthFields, if_pos hone] at h ⊢
    obtain ⟨hfield, -⟩ := h.field_eq (show len < 2 ^ 8 by omega)
    rw [hfield, if_pos hone, if_pos hone]
    exact ⟨rfl, rfl⟩
  · rw [lengthFields, if_neg hone] at h ⊢
    have hcode : encodedLen len = 0x8000 + len := by
      rw [encodedLen_eq (by omega), Nat.mod_eq_of_lt hlt]
    obtain ⟨hfield, -⟩ := h.field_eq (show encodedLen len < 2 ^ 16 by omega)
    -- the two octets of the field
    have hsplit := m.field_add p 8 8
    have hlow : m.field (p + 8) 8 < 2 ^ 8 := m.field_lt _ _
    rw [← Nat.shiftLeft_add_eq_or_of_lt hlow, Nat.shiftLeft_eq, hfield, hcode] at hsplit
    rw [if_neg (by omega), if_pos (by omega), if_neg (by omega), if_pos (by omega)]
    exact ⟨by omega, rfl⟩

/-- The next position with as many bits left as at `p`. -/
theorem realignPos_eq (p w : Nat) :
    realignPos (p + w) (8 - p % 8) = p + 8 * ((w + 7) / 8) := by
  unfold realignPos
  split <;> omega

/-- Where the content of an open type starts. -/
def contentStart (p : Nat) (fields : List Field) : Nat :=
  p + fieldWidth (lengthFields ((fieldWidth fields + 7) / 8))

theorem contentStart_mod (p : Nat) (fields : List Field) :
    contentStart p fields % 8 = p % 8 ∧ p + 8 ≤ contentStart p fields := by
  rw [contentStart, fieldWidth_lengthFields, length_lengthOctets]
  split <;> omega

/-- Where an open type ends. -/
theorem contentStart_add (p : Nat) (fields : List Field) :
    contentStart p fields + 8 * ((fieldWidth fields + 7) / 8) =
      p + fieldWidth (openType fields) := by
  rw [contentStart, fieldWidth_openType, fieldWidth_lengthFields]
  omega

theorem carries_openType {m : Mem} {p : Nat} {fields : List Field}
    (h : Carries m p (openType fields)) :
    Carries m p (lengthFields ((fieldWidth fields + 7) / 8)) ∧
      Carries m (contentStart p fields) fields := by
  rw [openType, List.append_assoc, carries_append, carries_append] at h
  exact ⟨h.1, h.2.1⟩

theorem Carries.tail {m : Mem} {p n v : Nat} {fs : List Field} (h : Carries m p (⟨n, v⟩ :: fs)) :
    Carries m (p + n) fs :=
  ((@carries_append m p [⟨n, v⟩] fs).mp h).2

/-- What stands there is carried. -/
theorem carries_field (m : Mem) (p n : Nat) : Carries m p [⟨n, m.field p n⟩] := by
  have h := toBits_ofBits (m.bits p n)
  rw [Mem.length_bits] at h
  simpa [Carries, Mem.field, fieldWidth, fieldBits] using h.symm

namespace Reader

variable {α β : Type} {m : Mem} {last p saved : Nat}

/-! ## Steps of a run -/

theorem eval_bits {n v : Nat} {hn : 0 < n ∧ n ≤ 32} {f : Nat → Reader β} (hv : m.field p n = v) :
    (bits n hn >>= f).eval m last p saved = (f v).eval m last (p + n) saved := by
  rw [← hv]
  rfl

/-- A check that is passed. -/
theorem eval_need {g : Nat → Nat} {f : Unit → Reader β} (henough : p / 8 + g (8 - p % 8) ≤ last) :
    (need g (done ()) >>= f).eval m last p saved = (f ()).eval m last p saved := by
  rw [eval_bind]
  simp only [eval, if_pos henough, Option.bind_some]

/-- A check that is not. -/
theorem eval_need_short {g : Nat → Nat} {f : Unit → Reader β}
    (hshort : last < p / 8 + g (8 - p % 8)) :
    (need g (done ()) >>= f).eval m last p saved = none := by
  rw [eval_bind]
  simp only [eval, if_neg (Nat.not_le.mpr hshort), Option.bind_none]

/-- A check for a field that is there. -/
theorem eval_needBits {n : Nat} {f : Unit → Reader β} (hn : n ≤ 32)
    (hleft : 8 - p % 8 ≤ n ∨ p / 8 < last) (hend : (p + n) / 8 ≤ last) :
    (needBits n >>= f).eval m last p saved = (f ()).eval m last p saved := by
  refine eval_need ?_
  unfold calcBytesNeededForNMoreBits
  omega

/-- An open type, up to its content. -/
theorem eval_openType (body : Int → Reader α) (f : α → Reader β) {fields : List Field}
    (hc : Carries m p (openType fields)) (hlen : (fieldWidth fields + 7) / 8 < 0x2000) :
    ((do
        let n ← len
        save (done ())
        body n) >>= f).eval m last p saved =
      (body ((fieldWidth fields + 7) / 8 : Nat) >>= f).eval m last (contentStart p fields)
        (8 - contentStart p fields % 8) := by
  obtain ⟨hat, hnext⟩ := lengthAt_lengthFields hlen (carries_openType hc).1
  have hinner : (len >>= fun n => save (done ()) >>= fun _ => body n).eval m last p saved =
      (body ((fieldWidth fields + 7) / 8 : Nat)).eval m last (contentStart p fields)
        (8 - contentStart p fields % 8) := by
    rw [contentStart, ← hat, ← hnext]
    rfl
  rw [eval_bind, hinner, eval_bind]

/-! ## Where a run gets to -/

/-- From `p` on the reader passes its checks, and returns a value and a position in `Q`. -/
def Reads (m : Mem) (last : Nat) (x : Reader α) (p : Nat) (Q : α → Nat → Prop) : Prop :=
  ∀ saved, ∃ a q saved', x.eval m last p saved = some (a, q, saved') ∧ Q a q

theorem reads_pure {a : α} {Q : α → Nat → Prop} (h : Q a p) : Reads m last (pure a) p Q :=
  fun saved => ⟨a, p, saved, rfl, h⟩

theorem Reads.bind {x : Reader α} {f : α → Reader β} {Q : α → Nat → Prop} {R : β → Nat → Prop}
    (hx : Reads m last x p Q) (hf : ∀ a q, Q a q → Reads m last (f a) q R) :
    Reads m last (x >>= f) p R := by
  intro saved
  obtain ⟨a, q, saved₁, ha, hQ⟩ := hx saved
  obtain ⟨b, r, saved₂, hb, hR⟩ := hf a q hQ saved₁
  refine ⟨b, r, saved₂, ?_, hR⟩
  rw [eval_bind, ha]
  exact hb

/-- An open type whose content is read as the fields `fs`, be they the ones that were written or
not. -/
theorem reads_openType (body : Int → Reader α) {fields fs : List Field} {Q : α → Prop}
    (hc : Carries m p (openType fields)) (hlen : (fieldWidth fields + 7) / 8 < 0x2000)
    (hbody : Parses m last (body ((fieldWidth fields + 7) / 8 : Nat)) (contentStart p fields) fs Q)
    (hfs : Carries m (contentStart p fields) fs) :
    Reads m last
      ((do
        let n ← len
        save (done ())
        body n) >>= fun a => restore (done a)) p
      fun a q => q = contentStart p fields + 8 * ((fieldWidth fs + 7) / 8) ∧ Q a := by
  intro saved
  obtain ⟨a, ha, hQ⟩ := hbody hfs (8 - contentStart p fields % 8)
  refine ⟨a, _, 8 - contentStart p fields % 8, ?_, rfl, hQ⟩
  rw [eval_openType body _ hc hlen, eval_bind, ha]
  simp only [Option.bind_some, eval, realignPos_eq]

end Reader

end SatComm.Asnbuf
