import SatComm.Asnbuf.OpenType

/-!
# How far a reader gets

`Reader.walk` is a run of a reader that keeps the cursor it ends at; a run of `x >>= f` is a run of
`f` from the cursor `x` ends at. `Reader.Ends` says where a reader ends when it comes through, and
`Reader.next_openType` where the code goes on behind an open type: behind the octets of what was
read, whatever the length said.
-/

namespace SatComm.Asnbuf

open Bits

namespace Reader

variable {α β : Type}

/-! ## The cursor behind a run -/

/-- A run with the cursor and the `save_bits_left` behind it, `none` for an error label. -/
def walk (m : Mem) (last : Nat) : Reader α → Cursor → Nat → Option (α × Cursor × Nat)
  | done a, c, saved => some (a, c, saved)
  | stop, _, _ => none
  | get n _ k, c, saved =>
    let (v, c') := getNextNBits m c n
    walk m last (k v) c' saved
  | length k, c, saved =>
    let (v, c') := parseAsnVariableLengthEnc m c
    walk m last (k v) c' saved
  | need g k, c, saved =>
    if (last : Int) - c.cp < g c.bitsLeft then none else walk m last k c saved
  | save k, c, _ => walk m last k c c.bitsLeft
  | restore k, c, saved => walk m last k (c.realign saved) saved

theorem walk_bind (m : Mem) (last : Nat) (x : Reader α) (f : α → Reader β) (c : Cursor)
    (saved : Nat) :
    (x >>= f).walk m last c saved =
      (x.walk m last c saved).bind fun r => (f r.1).walk m last r.2.1 r.2.2 := by
  change (x.bind f).walk m last c saved = _
  induction x generalizing c saved with
  | done a => rfl
  | stop => rfl
  | get n hn k ih => exact ih _ _ _
  | length k ih => exact ih _ _ _
  | need g k ih =>
    simp only [bind, walk]
    split
    · rfl
    · exact ih c saved
  | save k ih => exact ih _ _
  | restore k ih => exact ih _ _

/-- The walk over positions. -/
theorem eval_of_walk {m : Mem} {last : Nat} {x : Reader α} {c c' : Cursor} {saved saved' : Nat}
    {a : α} (hc : c.Valid) (hs : 0 < saved ∧ saved ≤ 8)
    (h : x.walk m last c saved = some (a, c', saved')) :
    x.eval m last c.pos saved = some (a, c'.pos, saved') ∧ c'.Valid ∧ 0 < saved' ∧ saved' ≤ 8 := by
  induction x generalizing c saved with
  | done b =>
    obtain ⟨rfl, rfl, rfl⟩ : b = a ∧ c = c' ∧ saved = saved' := by simpa [walk] using h
    exact ⟨rfl, hc, hs⟩
  | stop => exact absurd h (by simp [walk])
  | get n hn k ih =>
    obtain ⟨hval, hc', hpos⟩ := getNextNBits_spec m hc hn.1 hn.2
    simp only [walk] at h
    have hrest := ih _ hc' hs h
    rw [hval, hpos] at hrest
    exact hrest
  | length k ih =>
    obtain ⟨hval, hc', hpos⟩ := parseAsnVariableLengthEnc_spec m hc
    simp only [walk] at h
    have hrest := ih _ hc' hs h
    rw [hval, hpos] at hrest
    exact hrest
  | need g k ih =>
    simp only [walk] at h
    simp only [eval]
    rw [← hc.bitsLeft_eq, ← hc.cp_eq]
    split at h
    · exact absurd h (by simp)
    · rw [if_pos (by omega)]
      exact ih hc hs h
  | save k ih =>
    simp only [eval]
    rw [← hc.bitsLeft_eq]
    exact ih hc hc h
  | restore k ih =>
    simp only [eval]
    rw [← hc.pos_realign]
    exact ih (c.realign_spec hs) hs h

/-! ## Where a reader ends -/

/-- Where the reader comes through, it ends at `q` and leaves `save_bits_left` alone. -/
def Ends (m : Mem) (last : Nat) (x : Reader α) (p q : Nat) : Prop :=
  ∀ saved a q' saved', x.eval m last p saved = some (a, q', saved') → q' = q ∧ saved' = saved

section rules

variable {m : Mem} {last p q r : Nat}

theorem ends_pure (a : α) (h : p = q) : Ends m last (pure a) p q := by
  intro saved b q' saved' hb
  obtain ⟨-, rfl, rfl⟩ : a = b ∧ p = q' ∧ saved = saved' := by simpa [Pure.pure, eval] using hb
  exact ⟨h, rfl⟩

theorem ends_stop : Ends m last (stop : Reader α) p q := by
  intro saved a q' saved' h
  exact absurd h (by simp [eval])

theorem Ends.bind {x : Reader α} {f : α → Reader β} (hx : Ends m last x p r)
    (hf : ∀ a, Ends m last (f a) r q) : Ends m last (x >>= f) p q := by
  intro saved b q' saved' h
  rw [eval_bind, Option.bind_eq_some_iff] at h
  obtain ⟨⟨a, r', saved₁⟩, ha, hb⟩ := h
  obtain ⟨rfl, rfl⟩ := hx _ _ _ _ ha
  exact hf _ _ _ _ _ hb

/-- The last part. -/
theorem Ends.finish {x : Reader α} {g : α → β} (hx : Ends m last x p r) (h : r = q) :
    Ends m last (x >>= fun a => pure (g a)) p q :=
  hx.bind fun a => ends_pure (g a) h

/-- A field whose value the rest depends on. -/
theorem ends_bits {n : Nat} {hn : 0 < n ∧ n ≤ 32} {f : Nat → Reader β}
    (hf : Ends m last (f (m.field p n)) (p + n) q) : Ends m last (bits n hn >>= f) p q := by
  intro saved b q' saved' h
  rw [eval_bits rfl] at h
  exact hf _ _ _ _ h

theorem ends_field {n : Nat} {hn : 0 < n ∧ n ≤ 32} : Ends m last (bits n hn) p (p + n) :=
  ends_bits (ends_pure _ rfl)

theorem ends_need {g : Nat → Nat} {f : Unit → Reader β} (hf : Ends m last (f ()) p q) :
    Ends m last (need g (done ()) >>= f) p q := by
  intro saved b q' saved' h
  by_cases henough : p / 8 + g (8 - p % 8) ≤ last
  · rw [eval_need henough] at h
    exact hf _ _ _ _ h
  · rw [eval_need_short (by omega)] at h
    exact absurd h (by simp)

/-- A part with an option bit. -/
theorem ends_optional {c : Prop} [Decidable c] {absent : α} {x : Reader α} {w : Nat}
    (hx : c → Ends m last x p (p + w)) :
    Ends m last (optional c absent x) p (p + if c then w else 0) := by
  unfold optional
  split
  · exact hx ‹c›
  · exact ends_pure absent rfl

/-- The bits of `n` elements from `p` on, for elements whose width the message tells. -/
def elementsWidth (width : Nat → Nat) (p : Nat) : Nat → Nat
  | 0 => 0
  | n + 1 => width p + elementsWidth width (p + width p) n

theorem elementsWidth_const (w p n : Nat) : elementsWidth (fun _ => w) p n = n * w := by
  induction n generalizing p with
  | zero => simp [elementsWidth]
  | succ n ih => rw [elementsWidth, ih, Nat.add_mul, Nat.one_mul, Nat.add_comm]

theorem ends_forEach {γ : Type} {x : γ → Reader α} {width : Nat → Nat}
    (hx : ∀ i p, Ends m last (x i) p (p + width p)) (is : List γ) :
    Ends m last (forEach x is) p (p + elementsWidth width p is.length) := by
  induction is generalizing p with
  | nil => exact ends_pure [] rfl
  | cons i is ih =>
    refine (hx i p).bind fun a => ih.finish ?_
    rw [List.length_cons, elementsWidth, Nat.add_assoc]

/-! ## Behind an open type -/

/-- The length goes into what the content is checked against, not into where it ends. -/
theorem eval_openType_content {body : Int → Reader α} {saved : Nat} :
    (len >>= fun n => save (done ()) >>= fun _ => body n).eval m last p saved =
      (body (lengthAt m p)).eval m last (lengthNext m p) (8 - lengthNext m p % 8) := rfl

/-- The code goes on behind the octets of what it has read. -/
theorem next_openType {body : Int → Reader α} {w : Nat}
    (hbody : Ends m last (body (lengthAt m p)) (lengthNext m p) (lengthNext m p + w))
    {saved saved' : Nat} {a : α}
    (h : ((len >>= fun n => save (done ()) >>= fun _ => body n) >>= fun a =>
      restore (done a)).eval m last p saved = some (a, q, saved')) :
    q = lengthNext m p + 8 * ((w + 7) / 8) := by
  rw [eval_bind, eval_openType_content, Option.bind_eq_some_iff] at h
  obtain ⟨⟨b, r', saved₁⟩, hb, hrest⟩ := h
  obtain ⟨rfl, rfl⟩ := hbody _ _ _ _ hb
  have hq : realignPos (lengthNext m p + w) (8 - lengthNext m p % 8) = q := by
    simp only [eval, Option.some.injEq, Prod.mk.injEq] at hrest
    exact hrest.2.1
  rw [← hq, realignPos_eq]

end rules

end Reader

/-- `n` bytes further on, with the same bits left. -/
theorem Cursor.Valid.ahead_iff {c e : Cursor} (hc : c.Valid) (he : e.Valid) (n : Int) :
    ((c.cp : Int) = e.cp + n ∧ c.bitsLeft = e.bitsLeft) ↔ (c.pos : Int) = e.pos + 8 * n := by
  obtain ⟨hc₁, hc₂⟩ := hc
  obtain ⟨he₁, he₂⟩ := he
  unfold Cursor.pos
  omega

end SatComm.Asnbuf
