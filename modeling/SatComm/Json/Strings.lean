import Mathlib

/-!
# Strings of a JSON text

`printStringPtr` writes a string with escapes and `parseString` reads one. A string is a C string:
it has no zero byte. `parseString_printStringPtr` is the round trip, and
`parseString_utf16` says what a UTF-16 escape is read as.
-/

namespace SatComm

namespace Json

/-- `"` -/
def quote : UInt8 := 0x22

/-- `\` -/
def backslash : UInt8 := 0x5C

/-- `u` -/
def letterU : UInt8 := 0x75

/-- A C string, without its end. -/
abbrev CString := { s : List UInt8 // 0 ∉ s }

/-- What an output buffer holds as a C string. -/
def cString (output : List UInt8) : CString :=
  ⟨output.takeWhile (· ≠ 0), fun h => by simpa using List.mem_takeWhile_imp h⟩

/-- A digit of `%04x`. -/
def hexDigit (n : Nat) : UInt8 := UInt8.ofNat (if n < 10 then 0x30 + n else 0x57 + n)

/-- `u%04x` -/
def unicodeEscape (n : Nat) : List UInt8 :=
  [letterU, hexDigit (n / 4096 % 16), hexDigit (n / 256 % 16), hexDigit (n / 16 % 16),
    hexDigit (n % 16)]

/-- What one character is printed as. -/
def escape (c : UInt8) : List UInt8 :=
  if 31 < c.toNat ∧ c ≠ quote ∧ c ≠ backslash then [c]
  else if c = backslash then [backslash, backslash]
  else if c = quote then [backslash, quote]
  else if c.toNat = 8 then [backslash, 0x62]
  else if c.toNat = 12 then [backslash, 0x66]
  else if c.toNat = 10 then [backslash, 0x6E]
  else if c.toNat = 13 then [backslash, 0x72]
  else if c.toNat = 9 then [backslash, 0x74]
  else backslash :: unicodeEscape c.toNat

/-- Where nothing is to be escaped the source copies the string, which is the same. -/
def printStringPtr (s : CString) : List UInt8 := quote :: s.1.flatMap escape ++ [quote]

/-- What stands up to the closing quote, and what follows it. -/
def findEnd : List UInt8 → Option (List UInt8 × List UInt8)
  | [] => none
  | [c] => if c = quote then some ([], []) else none
  | c :: e :: rest =>
    if c = quote then some ([], e :: rest)
    else if c = backslash then (findEnd rest).map fun r => (c :: e :: r.1, r.2)
    else (findEnd (e :: rest)).map fun r => (c :: r.1, r.2)

def hexValue (b : UInt8) : Option Nat :=
  let n := b.toNat
  if 0x30 ≤ n ∧ n ≤ 0x39 then some (n - 0x30)
  else if 0x41 ≤ n ∧ n ≤ 0x46 then some (10 + n - 0x41)
  else if 0x61 ≤ n ∧ n ≤ 0x66 then some (10 + n - 0x61)
  else none

/-- Four hexadecimal digits; 0 if one of them is none. -/
def parseHex4 (input : List UInt8) : Nat :=
  match input with
  | a :: b :: c :: d :: _ =>
    match hexValue a, hexValue b, hexValue c, hexValue d with
    | some a, some b, some c, some d => ((a * 16 + b) * 16 + c) * 16 + d
    | _, _, _, _ => 0
  | _ => 0

/-- A byte `10xxxxxx` of UTF-8. -/
def continuation (codepoint : Nat) : UInt8 := UInt8.ofNat ((codepoint ||| 0x80) &&& 0xBF)

/-- The bytes of a code point. -/
def utf8Of (codepoint : Nat) : Option (List UInt8) :=
  if codepoint < 0x80 then some [UInt8.ofNat (codepoint &&& 0x7F)]
  else if codepoint < 0x800 then
    some [UInt8.ofNat ((codepoint >>> 6 ||| 0xC0) &&& 0xFF), continuation codepoint]
  else if codepoint < 0x10000 then
    some [UInt8.ofNat ((codepoint >>> 12 ||| 0xE0) &&& 0xFF), continuation (codepoint >>> 6),
      continuation codepoint]
  else if codepoint ≤ 0x10FFFF then
    some [UInt8.ofNat ((codepoint >>> 18 ||| 0xF0) &&& 0xFF), continuation (codepoint >>> 12),
      continuation (codepoint >>> 6), continuation codepoint]
  else none

/-- The bytes that a UTF-16 escape stands for, and the length of the escape. -/
def utf16LiteralToUtf8 (input : List UInt8) : Option (List UInt8 × Nat) :=
  if input.length < 6 then none
  else
    let first := parseHex4 (input.drop 2)
    if 0xDC00 ≤ first ∧ first ≤ 0xDFFF then none
    else if 0xD800 ≤ first ∧ first ≤ 0xDBFF then
      let second := input.drop 6
      if second.length < 6 then none
      else if second.take 2 ≠ [backslash, letterU] then none
      else
        let code := parseHex4 (second.drop 2)
        if code < 0xDC00 ∨ 0xDFFF < code then none
        else
          (utf8Of (0x10000 + ((first &&& 0x3FF) <<< 10 ||| (code &&& 0x3FF)))).map
            fun bytes => (bytes, 12)
    else (utf8Of first).map fun bytes => (bytes, 6)

/-- The character of an escape of two characters. -/
def simpleEscape (e : UInt8) : Option UInt8 :=
  if e = 0x62 then some 8
  else if e = 0x66 then some 12
  else if e = 0x6E then some 10
  else if e = 0x72 then some 13
  else if e = 0x74 then some 9
  else if e = quote ∨ e = backslash ∨ e = 0x2F then some e
  else none

/-- The loop through the string literal, with as many turns as it has characters. -/
def unescape : Nat → List UInt8 → Option (List UInt8)
  | _, [] => some []
  | 0, _ :: _ => none
  | n + 1, c :: rest =>
    if c ≠ backslash then (unescape n rest).map (c :: ·)
    else
      match rest with
      -- the character behind is the closing quote; `findEnd` leaves no such end
      | [] => some [quote]
      | e :: rest' =>
        match simpleEscape e with
        | some b => (unescape n rest').map (b :: ·)
        | none =>
          if e = letterU then
            match utf16LiteralToUtf8 (c :: e :: rest') with
            | some (bytes, length) =>
              (unescape n ((c :: e :: rest').drop length)).map (bytes ++ ·)
            | none => none
          else none

def parseString : List UInt8 → Option (CString × List UInt8)
  | [] => none
  | c :: rest =>
    if c ≠ quote then none
    else
      match findEnd rest with
      | some (literal, rest') =>
        (unescape literal.length literal).map fun output => (cString output, rest')
      | none => none

section Literal

attribute [local simp] findEnd

theorem findEnd_quote (rest : List UInt8) : findEnd (quote :: rest) = some ([], rest) := by
  cases rest <;> simp

theorem findEnd_plain {c : UInt8} (hq : c ≠ quote) (hb : c ≠ backslash) (rest : List UInt8) :
    findEnd (c :: rest) = (findEnd rest).map fun r => (c :: r.1, r.2) := by
  cases rest <;> simp [hq, hb]

theorem findEnd_pair (e : UInt8) (rest : List UInt8) :
    findEnd (backslash :: e :: rest) =
      (findEnd rest).map fun r => (backslash :: e :: r.1, r.2) := by
  have hne : backslash ≠ quote := by decide
  simp [hne]

end Literal

/-- Characters none of which is looked at. -/
theorem findEnd_append {l : List UInt8} (hl : ∀ c ∈ l, c ≠ quote ∧ c ≠ backslash)
    (rest : List UInt8) :
    findEnd (l ++ rest) = (findEnd rest).map fun r => (l ++ r.1, r.2) := by
  induction l with
  | nil => simp
  | cons c l ih =>
    obtain ⟨hq, hb⟩ := hl c List.mem_cons_self
    rw [List.cons_append, findEnd_plain hq hb, ih fun d hd => hl d (List.mem_cons_of_mem c hd),
      Option.map_map]
    rfl

theorem hexValue_hexDigit : ∀ n < 16, hexValue (hexDigit n) = some n := by decide

theorem hexDigit_ne : ∀ n < 16, hexDigit n ≠ quote ∧ hexDigit n ≠ backslash := by decide

/-- What follows the backslash of an escape with four digits. -/
theorem unicodeEscape_ne (n : Nat) : ∀ c ∈ (unicodeEscape n).tail, c ≠ quote ∧ c ≠ backslash := by
  have hlt : ∀ m : Nat, m % 16 < 16 := fun m => Nat.mod_lt m (by decide)
  intro c hc
  simp only [unicodeEscape, List.tail_cons, List.mem_cons, List.not_mem_nil, or_false] at hc
  rcases hc with rfl | rfl | rfl | rfl
  · exact hexDigit_ne _ (hlt _)
  · exact hexDigit_ne _ (hlt _)
  · exact hexDigit_ne _ (hlt _)
  · exact hexDigit_ne _ (hlt _)

theorem parseHex4_unicodeEscape {n : Nat} (hn : n < 65536) (rest : List UInt8) :
    parseHex4 ((unicodeEscape n).tail ++ rest) = n := by
  have hlt : ∀ m : Nat, m % 16 < 16 := fun m => Nat.mod_lt m (by decide)
  simp only [unicodeEscape, List.tail_cons, List.cons_append, parseHex4]
  rw [hexValue_hexDigit _ (hlt _), hexValue_hexDigit _ (hlt _), hexValue_hexDigit _ (hlt _),
    hexValue_hexDigit _ (hlt _)]
  simp only
  omega

/-- The escapes, by their shape. -/
inductive Escaped (c : UInt8) : List UInt8 → Prop
  | plain (hq : c ≠ quote) (hb : c ≠ backslash) : Escaped c [c]
  | simple {e : UInt8} (he : simpleEscape e = some c) : Escaped c [backslash, e]
  | unicode (hc : c.toNat < 32) : Escaped c (backslash :: unicodeEscape c.toNat)

theorem escaped_escape (c : UInt8) : Escaped c (escape c) := by
  rw [escape]
  split
  · rename_i h
    exact .plain h.2.1 h.2.2
  rename_i hspecial
  split
  · rename_i h
    rw [h]
    exact .simple rfl
  split
  · rename_i h
    rw [h]
    exact .simple rfl
  split
  · rename_i h
    obtain rfl : c = 8 := UInt8.toNat_inj.mp h
    exact .simple rfl
  split
  · rename_i h
    obtain rfl : c = 12 := UInt8.toNat_inj.mp h
    exact .simple rfl
  split
  · rename_i h
    obtain rfl : c = 10 := UInt8.toNat_inj.mp h
    exact .simple rfl
  split
  · rename_i h
    obtain rfl : c = 13 := UInt8.toNat_inj.mp h
    exact .simple rfl
  split
  · rename_i h
    obtain rfl : c = 9 := UInt8.toNat_inj.mp h
    exact .simple rfl
  · rename_i hb hq _ _ _ _ _
    refine .unicode ?_
    by_contra hge
    exact hspecial ⟨by omega, hq, hb⟩

theorem findEnd_escaped {c : UInt8} {l : List UInt8} (h : Escaped c l) (rest : List UInt8) :
    findEnd (l ++ rest) = (findEnd rest).map fun r => (l ++ r.1, r.2) := by
  cases h with
  | plain hq hb => exact findEnd_plain hq hb rest
  | simple _ => exact findEnd_pair _ rest
  | unicode _ =>
    have hsplit : backslash :: unicodeEscape c.toNat ++ rest =
        backslash :: letterU :: ((unicodeEscape c.toNat).tail ++ rest) := rfl
    rw [hsplit, findEnd_pair, findEnd_append (unicodeEscape_ne c.toNat), Option.map_map]
    rfl

theorem findEnd_escapes (s rest : List UInt8) :
    findEnd (s.flatMap escape ++ quote :: rest) = some (s.flatMap escape, rest) := by
  induction s with
  | nil => exact findEnd_quote rest
  | cons c s ih =>
    rw [List.flatMap_cons, List.append_assoc, findEnd_escaped (escaped_escape c), ih]
    rfl

section Turn

attribute [local simp] unescape

theorem unescape_plain {c : UInt8} (hb : c ≠ backslash) (n : Nat) (rest : List UInt8) :
    unescape (n + 1) (c :: rest) = (unescape n rest).map (c :: ·) := by
  simp [hb]

theorem unescape_simple {e b : UInt8} (he : simpleEscape e = some b) (n : Nat)
    (rest : List UInt8) :
    unescape (n + 1) (backslash :: e :: rest) = (unescape n rest).map (b :: ·) := by
  simp [he]

theorem unescape_utf16 {rest bytes : List UInt8} {length : Nat}
    (h : utf16LiteralToUtf8 (backslash :: letterU :: rest) = some (bytes, length)) (n : Nat) :
    unescape (n + 1) (backslash :: letterU :: rest) =
      (unescape n ((backslash :: letterU :: rest).drop length)).map (bytes ++ ·) := by
  have hu : simpleEscape letterU = none := by decide
  simp [hu, h]

end Turn

/-- An escape of a code unit that is no surrogate. -/
theorem utf16LiteralToUtf8_unicodeEscape {n : Nat} (hn : n < 65536)
    (hs : ¬ (0xD800 ≤ n ∧ n ≤ 0xDFFF)) (rest : List UInt8) :
    utf16LiteralToUtf8 (backslash :: unicodeEscape n ++ rest) =
      (utf8Of n).map fun bytes => (bytes, 6) := by
  have hfirst : parseHex4 ((backslash :: unicodeEscape n ++ rest).drop 2) = n :=
    parseHex4_unicodeEscape hn rest
  have hlen : ¬ (backslash :: unicodeEscape n ++ rest).length < 6 := by
    simp [unicodeEscape]
  rw [utf16LiteralToUtf8, if_neg hlen, hfirst]
  simp only
  rw [if_neg (by omega), if_neg (by omega)]

theorem utf8Of_ascii {c : UInt8} (hc : c.toNat < 32) : utf8Of c.toNat = some [c] := by
  have hall : ∀ i : Fin 32, utf8Of i = some [UInt8.ofNat i] := by decide
  have h := hall ⟨c.toNat, hc⟩
  simpa using h

/-- One turn of the loop for one character that was escaped. -/
theorem unescape_escaped {c : UInt8} {l : List UInt8} (h : Escaped c l) {n : Nat}
    (rest : List UInt8) (hn : (l ++ rest).length ≤ n) :
    ∃ m, rest.length ≤ m ∧ unescape n (l ++ rest) = (unescape m rest).map (c :: ·) := by
  cases n with
  | zero => cases h <;> simp at hn
  | succ n =>
    cases h with
    | plain _ hb =>
      refine ⟨n, ?_, unescape_plain hb n rest⟩
      simp at hn
      omega
    | simple he =>
      refine ⟨n, ?_, unescape_simple he n rest⟩
      simp at hn
      omega
    | unicode hc =>
      refine ⟨n, ?_, ?_⟩
      · simp [unicodeEscape] at hn
        omega
      · have hutf := utf16LiteralToUtf8_unicodeEscape (n := c.toNat) (by omega) (by omega) rest
        rw [utf8Of_ascii hc] at hutf
        exact unescape_utf16 hutf n

theorem unescape_escapes (s : List UInt8) {n : Nat} (hn : (s.flatMap escape).length ≤ n) :
    unescape n (s.flatMap escape) = some s := by
  induction s generalizing n with
  | nil => cases n <;> rfl
  | cons c s ih =>
    rw [List.flatMap_cons] at hn ⊢
    obtain ⟨m, hm, heq⟩ := unescape_escaped (escaped_escape c) (s.flatMap escape) hn
    rw [heq, ih hm]
    rfl

theorem cString_val (s : CString) : cString s.1 = s := by
  apply Subtype.ext
  rw [cString, List.takeWhile_eq_self_iff]
  intro c hc
  have hne : c ≠ 0 := fun h0 => s.2 (h0 ▸ hc)
  simpa using hne

/-- What is printed of a string is read back. -/
theorem parseString_printStringPtr (s : CString) (rest : List UInt8) :
    parseString (printStringPtr s ++ rest) = some (s, rest) := by
  have hprint : printStringPtr s ++ rest = quote :: (s.1.flatMap escape ++ quote :: rest) := by
    simp [printStringPtr]
  rw [hprint, parseString, if_neg (by simp), findEnd_escapes]
  simp only [unescape_escapes s.1 (Nat.le_refl _), Option.map_some, cString_val s]

/-- A character as UTF-16 escapes, of one code unit or of a surrogate pair. -/
def utf16Escape (c : Char) : List UInt8 :=
  if c.toNat < 0x10000 then backslash :: unicodeEscape c.toNat
  else
    backslash :: unicodeEscape (0xD800 + (c.toNat - 0x10000) / 1024) ++
      backslash :: unicodeEscape (0xDC00 + (c.toNat - 0x10000) % 1024)

theorem continuation_eq (n : Nat) : continuation n = UInt8.ofNat (n % 64 + 128) := by
  have hmask : (0xBF : Nat) = 2 ^ 7 ||| (2 ^ 6 - 1) := by decide
  have hbits : (n ||| 0x80) &&& 0xBF = 2 ^ 7 ||| (n &&& (2 ^ 6 - 1)) := by
    apply Nat.eq_of_testBit_eq
    intro i
    have hmark : (0x80 : Nat) = 2 ^ 7 := by decide
    rw [hmask, hmark]
    simp only [Nat.testBit_and, Nat.testBit_or, Nat.testBit_two_pow, Nat.testBit_two_pow_sub_one]
    by_cases hi : 7 = i
    · simp [hi]
    · simp [hi]
  have hlow : n % 2 ^ 6 < 2 ^ 7 := (Nat.mod_lt n (by decide)).trans (by decide)
  have hsum := Nat.two_pow_add_eq_or_of_lt hlow 1
  rw [Nat.mul_one] at hsum
  rw [continuation, hbits, Nat.and_two_pow_sub_one_eq_mod, ← hsum]
  congr 1
  omega

/-- A first byte, which has its mark above the bits of the code point. -/
theorem first_byte : (∀ m < 32, (m ||| 0xC0) &&& 0xFF = m % 32 + 0xC0) ∧
    (∀ m < 16, (m ||| 0xE0) &&& 0xFF = m % 16 + 0xE0) ∧
    ∀ m < 8, (m ||| 0xF0) &&& 0xFF = m % 8 + 0xF0 := by decide

/-- A scalar value gets the bytes of UTF-8. -/
theorem utf8Of_char (c : Char) : utf8Of c.toNat = some (String.utf8EncodeChar c) := by
  have hscalar : c.toNat < 0x110000 := by
    have := c.valid
    rcases this with h | h
    · exact lt_trans h (by decide)
    · exact h.2
  have hval : c.val.toNat = c.toNat := rfl
  have hshift : ∀ n : Nat, n >>> 6 = n / 64 ∧ n >>> 12 = n / 4096 ∧ n >>> 18 = n / 262144 :=
    fun n => ⟨Nat.shiftRight_eq_div_pow n 6, Nat.shiftRight_eq_div_pow n 12,
      Nat.shiftRight_eq_div_pow n 18⟩
  obtain ⟨h6, h12, h18⟩ := hshift c.toNat
  obtain ⟨htwo, hthree, hfour⟩ := first_byte
  simp only [utf8Of, String.utf8EncodeChar, hval, h6, h12, h18, continuation_eq]
  by_cases hone : c.toNat < 0x80
  · have hmask : c.toNat &&& 0x7F = c.toNat := by
      have := Nat.and_two_pow_sub_one_eq_mod c.toNat 7
      exact this.trans (Nat.mod_eq_of_lt hone)
    have hone' : c.toNat ≤ 0x7F := by omega
    rw [if_pos hone, if_pos hone', hmask]
  have hone' : ¬ c.toNat ≤ 0x7F := by omega
  rw [if_neg hone, if_neg hone']
  by_cases hlen2 : c.toNat < 0x800
  · have hlen2' : c.toNat ≤ 0x7FF := by omega
    rw [if_pos hlen2, if_pos hlen2', htwo _ (by omega)]
  have hlen2' : ¬ c.toNat ≤ 0x7FF := by omega
  rw [if_neg hlen2, if_neg hlen2']
  by_cases hlen3 : c.toNat < 0x10000
  · have hlen3' : c.toNat ≤ 0xFFFF := by omega
    rw [if_pos hlen3, if_pos hlen3', hthree _ (by omega)]
  · have hlen3' : ¬ c.toNat ≤ 0xFFFF := by omega
    have hlen4 : c.toNat ≤ 0x10FFFF := by omega
    rw [if_neg hlen3, if_neg hlen3', if_pos hlen4, hfour _ (by omega)]

theorem not_surrogate (c : Char) : ¬ (0xD800 ≤ c.toNat ∧ c.toNat ≤ 0xDFFF) := by
  rintro ⟨hlow, hhigh⟩
  rcases c.valid with h | h
  · have hlt : c.toNat < 0xD800 := h
    omega
  · have hgt : 0xDFFF < c.toNat := h.1
    omega

/-- The two halves of a surrogate pair give back the code point. -/
theorem codepoint_of_pair {n : Nat} (hlow : 0x10000 ≤ n) (hhigh : n < 0x110000) :
    0x10000 + (((0xD800 + (n - 0x10000) / 1024) &&& 0x3FF) <<< 10 |||
      ((0xDC00 + (n - 0x10000) % 1024) &&& 0x3FF)) = n := by
  have hmask : ∀ m : Nat, m &&& 0x3FF = m % 1024 := fun m => Nat.and_two_pow_sub_one_eq_mod m 10
  have hor := Nat.shiftLeft_add_eq_or_of_lt (b := (0xDC00 + (n - 0x10000) % 1024) % 1024) (i := 10)
    (Nat.mod_lt _ (by decide)) ((0xD800 + (n - 0x10000) / 1024) % 1024)
  rw [hmask, hmask, ← hor, Nat.shiftLeft_eq]
  omega

/-- An escape of one character is read as its bytes, and all of the escape is taken. -/
theorem utf16LiteralToUtf8_utf16Escape (c : Char) (rest : List UInt8) :
    utf16LiteralToUtf8 (utf16Escape c ++ rest) =
      some (String.utf8EncodeChar c, (utf16Escape c).length) := by
  rw [utf16Escape]
  by_cases hunit : c.toNat < 0x10000
  · rw [if_pos hunit, utf16LiteralToUtf8_unicodeEscape hunit (not_surrogate c), utf8Of_char]
    rfl
  · have hscalar : c.toNat < 0x110000 := by
      rcases c.valid with h | h
      · exact lt_trans h (by decide)
      · exact h.2
    have hhigh : 0xD800 + (c.toNat - 0x10000) / 1024 < 65536 := by omega
    have hlow : 0xDC00 + (c.toNat - 0x10000) % 1024 < 65536 := by omega
    have hcode := codepoint_of_pair (not_lt.mp hunit) hscalar
    rw [if_neg hunit]
    generalize hhi : 0xD800 + (c.toNat - 0x10000) / 1024 = high at hcode hhigh
    generalize hlo : 0xDC00 + (c.toNat - 0x10000) % 1024 = low at hcode hlow
    have hfirst : parseHex4 ((backslash :: unicodeEscape high ++
        backslash :: unicodeEscape low ++ rest).drop 2) = high := by
      rw [List.append_assoc]
      exact parseHex4_unicodeEscape hhigh _
    have hsecond : (backslash :: unicodeEscape high ++
        backslash :: unicodeEscape low ++ rest).drop 6 =
          backslash :: unicodeEscape low ++ rest := rfl
    have hcodeunit : parseHex4 ((backslash :: unicodeEscape low ++ rest).drop 2) = low :=
      parseHex4_unicodeEscape hlow rest
    have hlen : ¬ (backslash :: unicodeEscape high ++
        backslash :: unicodeEscape low ++ rest).length < 6 := by simp [unicodeEscape]
    have hlen' : ¬ (backslash :: unicodeEscape low ++ rest).length < 6 := by
      simp [unicodeEscape]
    have hmarks : (backslash :: unicodeEscape low ++ rest).take 2 = [backslash, letterU] := rfl
    rw [utf16LiteralToUtf8, if_neg hlen, hfirst]
    simp only
    rw [if_neg (by omega), if_pos (by omega), hsecond, if_neg hlen', hmarks,
      if_neg (fun h => h rfl), hcodeunit, if_neg (by omega), hcode, utf8Of_char]
    rfl

/-- One turn of the loop for one character that was escaped in UTF-16. -/
theorem unescape_utf16Escape (c : Char) {n : Nat} (rest : List UInt8)
    (hn : (utf16Escape c ++ rest).length ≤ n) :
    ∃ m, rest.length ≤ m ∧
      unescape n (utf16Escape c ++ rest) =
        (unescape m rest).map (String.utf8EncodeChar c ++ ·) := by
  obtain ⟨tail, htail⟩ : ∃ tail, utf16Escape c = backslash :: letterU :: tail := by
    rw [utf16Escape]
    split
    · exact ⟨_, rfl⟩
    · exact ⟨_, rfl⟩
  have hutf := utf16LiteralToUtf8_utf16Escape c rest
  have hdrop : (utf16Escape c ++ rest).drop (utf16Escape c).length = rest := List.drop_left
  rw [htail] at hn hutf hdrop ⊢
  cases n with
  | zero => simp at hn
  | succ n =>
    refine ⟨n, ?_, ?_⟩
    · simp at hn
      omega
    · have hrest := congrArg
        (fun l => (unescape n l).map (String.utf8EncodeChar c ++ ·)) hdrop
      exact (unescape_utf16 hutf n).trans hrest

theorem unescape_utf16Escapes (cs : List Char) {n : Nat}
    (hn : (cs.flatMap utf16Escape).length ≤ n) :
    unescape n (cs.flatMap utf16Escape) = some (cs.flatMap String.utf8EncodeChar) := by
  induction cs generalizing n with
  | nil => cases n <;> rfl
  | cons c cs ih =>
    rw [List.flatMap_cons] at hn ⊢
    obtain ⟨m, hm, heq⟩ := unescape_utf16Escape c (cs.flatMap utf16Escape) hn
    rw [heq, ih hm]
    rfl

/-- The escape of a character has neither a quote nor a backslash but those that begin it. -/
theorem findEnd_utf16Escape (c : Char) (rest : List UInt8) :
    findEnd (utf16Escape c ++ rest) =
      (findEnd rest).map fun r => (utf16Escape c ++ r.1, r.2) := by
  have hunit : ∀ n rest, findEnd (backslash :: unicodeEscape n ++ rest) =
      (findEnd rest).map fun r => (backslash :: unicodeEscape n ++ r.1, r.2) := by
    intro n rest
    have hsplit : backslash :: unicodeEscape n ++ rest =
        backslash :: letterU :: ((unicodeEscape n).tail ++ rest) := rfl
    rw [hsplit, findEnd_pair, findEnd_append (unicodeEscape_ne n), Option.map_map]
    rfl
  rw [utf16Escape]
  split
  · exact hunit _ rest
  · rw [List.append_assoc, hunit, hunit, Option.map_map]
    rfl

theorem findEnd_utf16Escapes (cs : List Char) (rest : List UInt8) :
    findEnd (cs.flatMap utf16Escape ++ quote :: rest) = some (cs.flatMap utf16Escape, rest) := by
  induction cs with
  | nil => exact findEnd_quote rest
  | cons c cs ih =>
    rw [List.flatMap_cons, List.append_assoc, findEnd_utf16Escape, ih]
    rfl

/-- A string literal all of whose characters are UTF-16 escapes is read as their UTF-8 bytes, up to
the first NUL. -/
theorem parseString_utf16 (cs : List Char) (rest : List UInt8) :
    parseString (quote :: cs.flatMap utf16Escape ++ quote :: rest) =
      some (cString (cs.flatMap String.utf8EncodeChar), rest) := by
  rw [List.cons_append, parseString, if_neg (by simp), findEnd_utf16Escapes]
  simp only [unescape_utf16Escapes cs (Nat.le_refl _), Option.map_some]

example : parseString (quote :: utf16Escape 'é' ++ [quote]) =
    some (⟨[0xC3, 0xA9], by decide⟩, []) := by decide

end Json

end SatComm
