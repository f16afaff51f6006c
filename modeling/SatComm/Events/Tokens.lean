import Mathlib
import SatComm.Codes.Segments

/-!
# The tokens of an event

`getNextToken` takes the next token off the front of an event. The position of the delimiter is kept
in an `unsigned int` before it is compared with `npos`. Where `size_t` is wider than that, what
`find` returns for a text without a delimiter is not `npos` any more, and the whole text is the
token; where it is not wider, the token is empty and the text stays.
-/

namespace SatComm

namespace Events

open Codes

/-- The platforms, by the width of `size_t`. -/
inductive SizeT
  | bits32 | bits64
deriving DecidableEq, Repr

namespace SizeT

def npos : SizeT → Nat
  | bits32 => 2 ^ 32 - 1
  | bits64 => 2 ^ 64 - 1

def find (w : SizeT) (inputString delimiter : List Char) : Nat :=
  (Codes.find inputString delimiter).getD w.npos

end SizeT

/-- `EventParserUtil::getNextToken`: the token and what the call leaves of the text. -/
def getNextToken (w : SizeT) (delimiter inputString : List Char) : List Char × List Char :=
  let position := w.find inputString delimiter % 2 ^ 32
  if position ≠ w.npos then
    -- no sum wraps: a position that is found lies in the text, the other is far below `2 ^ 64`
    (inputString.take position, inputString.drop (position + delimiter.length))
  else ([], inputString)

/-- `CallManagerServerImpl::fetchNextToken`. -/
def fetchNextToken (w : SizeT) (inputString delimiter : List Char) : List Char × List Char :=
  getNextToken w delimiter inputString

/-- The loop in `parseUserInput` from `i` on, where `i` is an `int` that must not overflow. -/
def parseUserInputLoop (w : SizeT) (size i : Int) (input : List Char) :
    Option (List (List Char)) :=
  if i ≤ size then
    let out := (fetchNextToken w input [' ']).1
    if i + out.length + 1 < 2 ^ 31 then
      (parseUserInputLoop w size (i + out.length + 1) (fetchNextToken w input [' ']).2).map
        (out :: ·)
    else none
  else some []
termination_by (size + 1 - i).toNat
decreasing_by omega

/-- `CallManagerServerImpl::parseUserInput`. The size is converted to an `int`. -/
def parseUserInput (w : SizeT) (input : List Char) : Option (List (List Char)) :=
  parseUserInputLoop w (Int.bmod input.length (2 ^ 32)) 1 input

/-! ## One token -/

variable {w : SizeT} {delimiter : List Char}

theorem le_npos (w : SizeT) : 2 ^ 32 - 1 ≤ w.npos := by
  cases w <;> decide

theorem cuts_getNextToken (w : SizeT) (delimiter : List Char) :
    Cuts (getNextToken w delimiter) delimiter (2 ^ 32 - 1) := by
  intro front rest hlength hfirst
  have hposition : w.find (front ++ delimiter ++ rest) delimiter % 2 ^ 32 = front.length := by
    rw [SizeT.find, find_append hfirst, Option.getD_some]
    apply Nat.mod_eq_of_lt
    simp only [List.length_append] at hlength
    omega
  have hne : front.length ≠ w.npos := by
    have hnpos := le_npos w
    simp only [List.length_append] at hlength
    omega
  rw [getNextToken, hposition, if_pos hne, ← List.length_append, List.append_assoc,
    List.take_left, ← List.append_assoc, List.drop_left]

theorem takesAll_getNextToken (delimiter : List Char) :
    TakesAll (getNextToken .bits64 delimiter) delimiter (2 ^ 32 - 1) := by
  intro s hlength _ h
  have hposition : SizeT.bits64.find s delimiter % 2 ^ 32 = 2 ^ 32 - 1 := by
    rw [SizeT.find, find_of_not_infix h]
    rfl
  have hne : 2 ^ 32 - 1 ≠ SizeT.bits64.npos := by decide
  rw [getNextToken, hposition, if_pos hne, List.take_of_length_le hlength.le,
    List.drop_eq_nil_of_le (hlength.le.trans (Nat.le_add_right _ _))]

theorem getNextToken_bits32 {s : List Char} (h : ¬delimiter <:+: s) :
    getNextToken .bits32 delimiter s = ([], s) := by
  have hposition : SizeT.bits32.find s delimiter % 2 ^ 32 = SizeT.bits32.npos := by
    rw [SizeT.find, find_of_not_infix h]
    rfl
  rw [getNextToken, hposition, if_neg (not_not.mpr rfl)]

theorem takesNothing_getNextToken (delimiter : List Char) (bound : Nat) :
    TakesNothing (getNextToken .bits32 delimiter) delimiter bound := by
  intro s _ _ h
  rw [getNextToken_bits32 h]

theorem tokenizes_getNextToken_iff (w : SizeT) {s : List Char} (hdelimiter : delimiter ≠ [])
    (hs : s.length < 2 ^ 32 - 1) :
    Tokenizes (getNextToken w delimiter) delimiter s ↔ w = .bits64 ∨ Ended delimiter s := by
  cases w with
  | bits32 =>
    rw [tokenizes_iff_of_takesNothing hdelimiter (cuts_getNextToken .bits32 delimiter)
      (takesNothing_getNextToken delimiter _) hs]
    simp
  | bits64 =>
    simp only [true_or, iff_true]
    exact .of_takesAll hdelimiter (cuts_getNextToken .bits64 delimiter)
      (takesAll_getNextToken delimiter) s hs

/-! ## The counting loop -/

/-- The counter stays an `int` until the loop ends. -/
def Counts (w : SizeT) (s : List Char) (size : Int) : Prop :=
  (Ended [' '] s ∧ size + 1 < 2 ^ 31) ∨ (w = .bits64 ∧ size + 2 < 2 ^ 31)

theorem parseUserInputLoop_of_lt {size i : Int} (h : size < i) (input : List Char) :
    parseUserInputLoop w size i input = some [] := by
  rw [parseUserInputLoop, if_neg (by omega)]

theorem parseUserInputLoop_of_le {size i : Int} {input out rest : List Char} (h : i ≤ size)
    (hnext : getNextToken w [' '] input = (out, rest)) :
    parseUserInputLoop w size i input =
      if i + out.length + 1 < 2 ^ 31 then
        (parseUserInputLoop w size (i + out.length + 1) rest).map (out :: ·)
      else none := by
  rw [parseUserInputLoop, if_pos h, fetchNextToken, hnext]

/-- The counter is one more than what has been taken off. -/
theorem parseUserInputLoop_iff {size : Int} (hsize : size < 2 ^ 31) {s : List Char}
    {segments : List (List Char)} (hs : s.length < 2 ^ 32 - 1) (hne : s ≠ [])
    (h : Segments [' '] s segments) :
    parseUserInputLoop w size (size + 1 - s.length) s = some segments ↔ Counts w s size := by
  induction h with
  | nil => exact absurd rfl hne
  | @last s hne hinfix =>
    have hpos := List.length_pos_iff.mpr hne
    have hended := not_ended_of_not_infix hne hinfix
    have hle : size + 1 - s.length ≤ size := by omega
    cases w with
    | bits32 =>
      rw [parseUserInputLoop_of_le hle (getNextToken_bits32 hinfix)]
      have hnot : ¬Counts .bits32 s size := by
        rintro (⟨h, -⟩ | ⟨h, -⟩)
        · exact hended h
        · cases h
      simp only [hnot, iff_false]
      split_ifs
      · intro hmap
        obtain ⟨l, -, hl⟩ := Option.map_eq_some_iff.mp hmap
        exact hne (List.cons.inj hl).1.symm
      · simp
    | bits64 =>
      rw [parseUserInputLoop_of_le hle (takesAll_getNextToken [' '] s hs hne hinfix)]
      have hnext : size + 1 - s.length + s.length + 1 = size + 2 := by ring
      have hcounts : Counts .bits64 s size ↔ size + 2 < 2 ^ 31 := by
        simp [Counts, hended]
      rw [hnext, hcounts, parseUserInputLoop_of_lt (by omega)]
      simp
  | @cons front rest segments hfirst h ih =>
    have hlength : ((front ++ [' '] ++ rest).length : Int) = front.length + 1 + rest.length := by
      simp only [List.length_append, List.length_singleton, Nat.cast_add, Nat.cast_one]
    have hle : size + 1 - ((front ++ [' '] ++ rest).length : Int) ≤ size := by omega
    have hnext : size + 1 - ((front ++ [' '] ++ rest).length : Int) + front.length + 1 =
        size + 1 - rest.length := by omega
    rw [parseUserInputLoop_of_le hle (cuts_getNextToken w [' '] front rest hs hfirst), hnext]
    have hended := ended_append (List.cons_ne_nil ' ' []) hfirst
    by_cases hrest : rest = []
    · subst hrest
      obtain rfl := eq_nil_of_segments_nil (List.cons_ne_nil ' ' []) h
      have hcounts : Counts w (front ++ [' '] ++ []) size ↔ size + 1 < 2 ^ 31 := by
        rw [Counts, hended]
        simp only [Ended.nil, true_and]
        omega
      rw [hcounts, parseUserInputLoop_of_lt (by simp)]
      simp
    · have hpos := List.length_pos_iff.mpr hrest
      have hcounts : Counts w (front ++ [' '] ++ rest) size ↔ Counts w rest size := by
        rw [Counts, hended, Counts]
      rw [if_pos (by omega), hcounts, ← ih _ hrest]
      · cases parseUserInputLoop w size (size + 1 - rest.length) rest <;> simp
      · exact (length_rest_lt (List.cons_ne_nil ' ' []) front rest).trans hs

theorem bmod_of_lt {n : Nat} (h : n < 2 ^ 31) : Int.bmod n (2 ^ 32) = n := by
  apply Int.bmod_eq_of_le <;> omega

theorem bmod_of_le {n : Nat} (h : 2 ^ 31 ≤ n) (hlt : n < 2 ^ 32) :
    Int.bmod n (2 ^ 32) = n - 2 ^ 32 := by
  rw [Int.bmod_def]
  omega

theorem parseUserInput_iff (w : SizeT) {s : List Char} (hs : s.length < 2 ^ 32 - 1) :
    (∃ segments, Segments [' '] s segments ∧ parseUserInput w s = some segments) ↔
      Counts w s s.length := by
  by_cases hne : s = []
  · subst hne
    have hcounts : Counts w [] ([] : List Char).length := .inl ⟨.nil, by decide⟩
    simp only [hcounts, iff_true]
    exact ⟨[], .nil, parseUserInputLoop_of_lt (by decide) []⟩
  have hpos := List.length_pos_iff.mpr hne
  obtain ⟨segments, hsegments⟩ := exists_segments (List.cons_ne_nil ' ' []) s
  rcases Nat.lt_or_ge s.length (2 ^ 31) with hlt | hle
  · have hloop (segments : List (List Char)) (h : Segments [' '] s segments) :
        parseUserInput w s = some segments ↔ Counts w s s.length := by
      rw [parseUserInput, bmod_of_lt hlt, ← parseUserInputLoop_iff (by omega) hs hne h]
      simp
    constructor
    · rintro ⟨segments, h, hparse⟩
      exact (hloop segments h).mp hparse
    · exact fun h => ⟨segments, hsegments, (hloop segments hsegments).mpr h⟩
  · -- the size is negative, and there is not a turn of the loop
    have hcounts : ¬Counts w s s.length := by
      rw [Counts]
      omega
    simp only [hcounts, iff_false]
    rintro ⟨segments, h, hparse⟩
    rw [parseUserInput, bmod_of_le hle (by omega), parseUserInputLoop_of_lt (by omega)] at hparse
    cases hparse
    cases h
    exact hne rfl

/-- The tokens are the segments where `size_t` is wide, or where nothing stands behind the last
delimiter; the counting loop needs besides that its counter stays an `int`. -/
theorem tokenizes_iff (w : SizeT) (delimiter s : List Char) (hdelimiter : delimiter ≠ [])
    (hs : s.length < 2 ^ 32 - 1) :
    (Tokenizes (getNextToken w delimiter) delimiter s ↔ w = .bits64 ∨ Ended delimiter s) ∧
    ((∃ segments, Segments [' '] s segments ∧ parseUserInput w s = some segments) ↔
      Counts w s s.length) :=
  ⟨tokenizes_getNextToken_iff w hdelimiter hs, parseUserInput_iff w hs⟩

theorem tokenizes_twoTokens :
    Tokenizes (getNextToken .bits64 [' ']) [' '] ['a', ' ', 'b'] ∧
    ∃ segments, Segments [' '] ['a', ' ', 'b'] segments ∧
      parseUserInput .bits64 ['a', ' ', 'b'] = some segments := by
  obtain ⟨htokens, hparse⟩ :=
    tokenizes_iff .bits64 [' '] ['a', ' ', 'b'] (by decide) (by decide)
  exact ⟨htokens.mpr (.inl rfl), hparse.mpr (.inr ⟨rfl, by decide⟩)⟩

theorem not_tokenizes_oneToken :
    ¬Tokenizes (getNextToken .bits32 [' ']) [' '] ['a'] ∧
    ¬∃ segments, Segments [' '] ['a'] segments ∧
      parseUserInput .bits32 ['a'] = some segments := by
  have hended : ¬Ended [' '] ['a'] :=
    not_ended_of_not_infix (by decide) (by decide)
  constructor
  · rw [tokenizes_getNextToken_iff .bits32 (by decide) (by decide)]
    rintro (h | h)
    · cases h
    · exact hended h
  · rw [parseUserInput_iff .bits32 (by decide)]
    rintro (⟨h, -⟩ | ⟨h, -⟩)
    · exact hended h
    · cases h

end Events

end SatComm
