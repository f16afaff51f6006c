import Mathlib.Data.List.Basic
import Mathlib.Data.List.TakeWhile
import Mathlib.Tactic.Common

/-!
# Numbers in a text

Numbers are printed in decimal, and read off the front of a text: spaces are skipped, and a sign and
as many digits as there are taken. A text of numbers is read until no number can be read any more.
What is printed with a space behind each number is read back.
-/

namespace Codes

/-! ## Reading off the front -/

/-- A reader takes a value off the front of a text, and leaves less of it. -/
structure Reader (α β : Type*) where
  read : List α → Option (β × List α)
  shorter : ∀ {s b rest}, read s = some (b, rest) → rest.length < s.length

variable {α β : Type*}

/-- Read until nothing can be read any more. -/
def Reader.readAll (r : Reader α β) (s : List α) : List β :=
  match _h : r.read s with
  | none => []
  | some (b, rest) => b :: r.readAll rest
termination_by s.length
decreasing_by exact r.shorter _h

theorem Reader.readAll_of_none {r : Reader α β} {s : List α} (h : r.read s = none) :
    r.readAll s = [] := by
  rw [readAll]
  split
  · rfl
  · rename_i h'
    rw [h] at h'
    cases h'

theorem Reader.readAll_of_some {r : Reader α β} {s rest : List α} {b : β}
    (h : r.read s = some (b, rest)) : r.readAll s = b :: r.readAll rest := by
  rw [readAll]
  split
  · rename_i h'
    rw [h] at h'
    cases h'
  · rename_i b' rest' h'
    obtain ⟨rfl, rfl⟩ := Prod.mk.inj (Option.some.inj (h.symm.trans h'))
    rfl

/-- What is printed with a separator behind each value is read back, if the separator is skipped in
front of a value and ends it. -/
theorem Reader.readAll_flatMap {r : Reader α β} {print : β → List α} {sep : α} {l : List β}
    (hread : ∀ b ∈ l, ∀ rest, r.read (print b ++ sep :: rest) = some (b, sep :: rest))
    (hskip : ∀ s, r.read (sep :: s) = r.read s) (hnil : r.read [] = none) :
    r.readAll (l.flatMap fun b => print b ++ [sep]) = l := by
  have hskipAll (s : List α) : r.readAll (sep :: s) = r.readAll s := by
    cases hs : r.read s with
    | none => rw [readAll_of_none ((hskip s).trans hs), readAll_of_none hs]
    | some p => rw [readAll_of_some ((hskip s).trans hs), readAll_of_some hs]
  induction l with
  | nil => exact readAll_of_none hnil
  | cons b l ih =>
    obtain ⟨hb, hl⟩ := List.forall_mem_cons.mp hread
    rw [List.flatMap_cons, List.append_assoc, List.singleton_append,
      readAll_of_some (hb _), hskipAll, ih hl]

/-! ## Decimal numbers -/

/-- A number in decimal, with a sign if it is negative. -/
def decimal : Int → List Char
  | .ofNat n => Nat.toDigits 10 n
  | .negSucc n => '-' :: Nat.toDigits 10 (n + 1)

/-- The number that the digits in front of a text stand for, if there are any, and what follows. -/
def readDigits (s : List Char) : Option (Nat × List Char) :=
  if s.takeWhile Char.isDigit = [] then none
  else some (Nat.ofDigitChars 10 (s.takeWhile Char.isDigit) 0, s.dropWhile Char.isDigit)

/-- A number with or without a sign. -/
def readSigned : List Char → Option (Int × List Char)
  | [] => none
  | c :: s =>
    if c = '-' then (readDigits s).map fun p => (-(p.1 : Int), p.2)
    else if c = '+' then (readDigits s).map fun p => ((p.1 : Int), p.2)
    else (readDigits (c :: s)).map fun p => ((p.1 : Int), p.2)

/-- Spaces are skipped, and a number is read that has to fit. -/
def readNumber (isSpace : Char → Bool) (fits : Int → Bool) (s : List Char) :
    Option (Int × List Char) :=
  match readSigned (s.dropWhile isSpace) with
  | some (d, rest) => if fits d then some (d, rest) else none
  | none => none

theorem shorter_readDigits {s rest : List Char} {n : Nat} (h : readDigits s = some (n, rest)) :
    rest.length < s.length := by
  unfold readDigits at h
  split_ifs at h with hnone
  obtain ⟨-, rfl⟩ := Prod.mk.inj (Option.some.inj h)
  have hsplit : s.takeWhile Char.isDigit ++ s.dropWhile Char.isDigit = s :=
    List.takeWhile_append_dropWhile
  have hlength := congrArg List.length hsplit
  rw [List.length_append] at hlength
  have hpos : 0 < (s.takeWhile Char.isDigit).length := List.length_pos_iff.mpr hnone
  omega

theorem shorter_readSigned {s rest : List Char} {d : Int} (h : readSigned s = some (d, rest)) :
    rest.length < s.length := by
  cases s with
  | nil => cases h
  | cons c s =>
    rw [readSigned] at h
    split_ifs at h <;>
    · obtain ⟨p, hp, heq⟩ := Option.map_eq_some_iff.mp h
      obtain ⟨-, rfl⟩ := Prod.mk.inj heq
      have hshorter := shorter_readDigits hp
      simp only [List.length_cons] at hshorter ⊢
      omega

theorem shorter_readNumber {isSpace : Char → Bool} {fits : Int → Bool} {s rest : List Char}
    {d : Int} (h : readNumber isSpace fits s = some (d, rest)) : rest.length < s.length := by
  unfold readNumber at h
  cases hread : readSigned (s.dropWhile isSpace) with
  | none =>
    rw [hread] at h
    cases h
  | some p =>
    rw [hread] at h
    dsimp only at h
    split_ifs at h
    obtain ⟨rfl, rfl⟩ := Prod.mk.inj (Option.some.inj h)
    exact (shorter_readSigned hread).trans_le (List.length_dropWhile_le _ _)

/-- The reader of numbers that fit. -/
def numbers (isSpace : Char → Bool) (fits : Int → Bool) : Reader Char Int :=
  ⟨readNumber isSpace fits, shorter_readNumber⟩

/-! ## Reading what is printed -/

theorem readDigits_toDigits {n : Nat} {c : Char} (hc : c.isDigit = false) (rest : List Char) :
    readDigits (Nat.toDigits 10 n ++ c :: rest) = some (n, c :: rest) := by
  have hdigits : ∀ x ∈ Nat.toDigits 10 n, x.isDigit = true := fun x hx =>
    Nat.isDigit_of_mem_toDigits (by decide) (by decide) hx
  have htake : (Nat.toDigits 10 n ++ c :: rest).takeWhile Char.isDigit = Nat.toDigits 10 n := by
    rw [List.takeWhile_append_of_pos hdigits, List.takeWhile_cons, hc]
    simp
  have hdrop : (Nat.toDigits 10 n ++ c :: rest).dropWhile Char.isDigit = c :: rest := by
    rw [List.dropWhile_append_of_pos hdigits, List.dropWhile_cons, hc]
    simp
  rw [readDigits, htake, hdrop, if_neg Nat.toDigits_ne_nil, Nat.ofDigitChars_ten_toDigits]

/-- The text of a number starts with a digit, behind the sign. -/
theorem exists_toDigits (n : Nat) :
    ∃ x xs, Nat.toDigits 10 n = x :: xs ∧ x.isDigit = true := by
  cases hdigits : Nat.toDigits 10 n with
  | nil => exact absurd hdigits Nat.toDigits_ne_nil
  | cons x xs =>
    refine ⟨x, xs, rfl, ?_⟩
    exact Nat.isDigit_of_mem_toDigits (by decide) (by decide) (hdigits ▸ List.mem_cons_self)

theorem readSigned_decimal {d : Int} {c : Char} (hc : c.isDigit = false) (rest : List Char) :
    readSigned (decimal d ++ c :: rest) = some (d, c :: rest) := by
  cases d with
  | ofNat n =>
    obtain ⟨x, xs, hdigits, hx⟩ := exists_toDigits n
    have hread := readDigits_toDigits (n := n) hc rest
    rw [hdigits, List.cons_append] at hread
    have hminus : x ≠ '-' := by
      rintro rfl
      cases hx
    have hplus : x ≠ '+' := by
      rintro rfl
      cases hx
    rw [decimal, hdigits, List.cons_append, readSigned, if_neg hminus, if_neg hplus, hread]
    rfl
  | negSucc n =>
    rw [decimal, List.cons_append, readSigned, if_pos rfl, readDigits_toDigits hc]
    rfl

/-- The first character of a number is none of those that are skipped. -/
theorem dropWhile_decimal {isSpace : Char → Bool}
    (hdigit : ∀ c, c.isDigit = true → isSpace c = false)
    (hminus : isSpace '-' = false) (d : Int) (rest : List Char) :
    (decimal d ++ rest).dropWhile isSpace = decimal d ++ rest := by
  cases d with
  | ofNat n =>
    obtain ⟨x, xs, hdigits, hx⟩ := exists_toDigits n
    rw [decimal, hdigits, List.cons_append, List.dropWhile_cons, hdigit x hx]
    rfl
  | negSucc n =>
    rw [decimal, List.cons_append, List.dropWhile_cons, hminus]
    rfl

/-- Numbers that fit are read back. -/
theorem readAll_numbers {isSpace : Char → Bool} {fits : Int → Bool} {sep : Char} {l : List Int}
    (hsep : isSpace sep = true) (hdigit : ∀ c, c.isDigit = true → isSpace c = false)
    (hminus : isSpace '-' = false) (hfits : ∀ d ∈ l, fits d = true) :
    (numbers isSpace fits).readAll (l.flatMap fun d => decimal d ++ [sep]) = l := by
  have hsepDigit : sep.isDigit = false := by
    cases hsepDigit : sep.isDigit with
    | false => rfl
    | true =>
      rw [hdigit sep hsepDigit] at hsep
      cases hsep
  apply Reader.readAll_flatMap
  · intro d hd rest
    change readNumber isSpace fits _ = _
    rw [readNumber, dropWhile_decimal hdigit hminus, readSigned_decimal hsepDigit]
    exact if_pos (hfits d hd)
  · intro s
    change readNumber isSpace fits _ = readNumber isSpace fits _
    rw [readNumber, readNumber, List.dropWhile_cons, hsep]
    rfl
  · rfl

end Codes
