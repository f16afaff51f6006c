import SatComm.Json.Values

/-!
# Texts of JSON values

A text is read with enough calls, and never deeper than `nestingLimit`. `parse_print` and
`parse_print_parse` are about whole texts.
-/

namespace SatComm

namespace Json

section Calls

variable {ν : Type} {text : NumberText ν} {n d : Nat} {rest behind : List UInt8}

theorem length_findEnd {rest literal behind : List UInt8}
    (h : findEnd rest = some (literal, behind)) : behind.length ≤ rest.length := by
  induction rest using findEnd.induct generalizing literal with
  | case1 => simp [findEnd] at h
  | case2 =>
    rw [findEnd, if_pos rfl] at h
    obtain ⟨-, rfl⟩ := Prod.mk.inj (Option.some.inj h)
    simp
  | case3 c hc => simp [findEnd, hc] at h
  | case4 e rest =>
    rw [findEnd, if_pos rfl] at h
    obtain ⟨-, rfl⟩ := Prod.mk.inj (Option.some.inj h)
    simp
  | case5 e rest hq ih =>
    rw [findEnd, if_neg hq, if_pos rfl] at h
    obtain ⟨r, hr, heq⟩ := Option.map_eq_some_iff.mp h
    obtain ⟨-, rfl⟩ := Prod.mk.inj heq
    have := ih hr
    simp
    omega
  | case6 c e rest hq hb ih =>
    rw [findEnd, if_neg hq, if_neg hb] at h
    obtain ⟨r, hr, heq⟩ := Option.map_eq_some_iff.mp h
    obtain ⟨-, rfl⟩ := Prod.mk.inj heq
    have := ih hr
    simp at this ⊢
    omega

theorem length_parseString {key : CString} (h : parseString rest = some (key, behind)) :
    behind.length ≤ rest.length := by
  cases rest with
  | nil => simp [parseString] at h
  | cons c rest =>
    rw [parseString] at h
    split at h
    · exact absurd h (by simp)
    cases hend : findEnd rest with
    | none => simp [hend] at h
    | some r =>
      obtain ⟨literal, rest'⟩ := r
      simp only [hend] at h
      obtain ⟨output, -, heq⟩ := Option.map_eq_some_iff.mp h
      obtain ⟨-, rfl⟩ := Prod.mk.inj heq
      have := length_findEnd hend
      simp
      omega

/-- How a value that is read begins: it is flat, or an array or object is opened. -/
theorem parseValue_cases {v : Value ν} (h : parseValue text (n + 1) d rest = some (v, behind)) :
    v.nesting = 0 ∧ behind.length ≤ rest.length ∨
      (∃ rest', rest = openBracket :: rest' ∧ d < nestingLimit ∧
        (v = .array [] ∧ behind = (skipWhitespace rest').tail ∨
          ∃ items, v = .array items ∧
            parseItems text n (d + 1) (skipWhitespace rest') = some (items, behind))) ∨
      ∃ rest', rest = openBrace :: rest' ∧ d < nestingLimit ∧
        (v = .object [] ∧ behind = (skipWhitespace rest').tail ∨
          ∃ members, v = .object members ∧
            parseMembers text n (d + 1) (skipWhitespace rest') = some (members, behind)) := by
  cases rest with
  | nil => simp [parseValue, textNull, textFalse, textTrue] at h
  | cons c rest' =>
    by_cases hbracket : c = openBracket
    · rw [hbracket, parseValue_openBracket] at h
      right
      left
      refine ⟨rest', by rw [hbracket], ?_⟩
      split at h
      · exact absurd h (by simp)
      rename_i hdeep
      refine ⟨by omega, ?_⟩
      split at h
      · exact absurd h (by simp)
      split at h
      · left
        simpa [eq_comm] using h
      · right
        obtain ⟨r, hr, heq⟩ := Option.map_eq_some_iff.mp h
        obtain ⟨rfl, rfl⟩ := Prod.mk.inj heq
        exact ⟨r.1, rfl, hr⟩
    by_cases hbrace : c = openBrace
    · rw [hbrace, parseValue_openBrace] at h
      right
      right
      refine ⟨rest', by rw [hbrace], ?_⟩
      split at h
      · exact absurd h (by simp)
      rename_i hdeep
      refine ⟨by omega, ?_⟩
      split at h
      · exact absurd h (by simp)
      split at h
      · left
        simpa [eq_comm] using h
      · right
        obtain ⟨r, hr, heq⟩ := Option.map_eq_some_iff.mp h
        obtain ⟨rfl, rfl⟩ := Prod.mk.inj heq
        exact ⟨r.1, rfl, hr⟩
    left
    have hkeyword : ∀ (u : Value ν) (m : Nat), u.nesting = 0 →
        some (u, (c :: rest').drop m) = some (v, behind) →
        v.nesting = 0 ∧ behind.length ≤ (c :: rest').length := by
      intro u m hu heq
      obtain ⟨rfl, rfl⟩ := Prod.mk.inj (Option.some.inj heq)
      exact ⟨hu, by simp⟩
    rw [parseValue] at h
    split at h
    · exact hkeyword _ 4 rfl h
    split at h
    · exact hkeyword _ 5 rfl h
    split at h
    · exact hkeyword _ 4 rfl h
    split at h
    · obtain ⟨r, hr, heq⟩ := Option.map_eq_some_iff.mp h
      obtain ⟨rfl, rfl⟩ := Prod.mk.inj heq
      exact ⟨rfl, length_parseString hr⟩
    split at h
    · rw [parseNumber] at h
      split at h
      · exact absurd h (by simp)
      split at h
      · exact absurd h (by simp)
      · exact hkeyword _ _ rfl h
    · exact absurd h (by simp)

theorem parseItems_cases {items : List (Value ν)}
    (h : parseItems text (n + 1) d rest = some (items, behind)) :
    ∃ v behind', parseValue text n d (skipWhitespace rest) = some (v, behind') ∧
      ((skipWhitespace behind' = closeBracket :: behind ∧ items = [v]) ∨
        ∃ rest' items', skipWhitespace behind' = comma :: rest' ∧
          parseItems text n d rest' = some (items', behind) ∧ items = v :: items') := by
  rw [parseItems] at h
  split at h
  · exact absurd h (by simp)
  rename_i v behind' hv
  refine ⟨v, behind', hv, ?_⟩
  split at h
  · exact absurd h (by simp)
  rename_i c rest' hskip
  split at h
  · rename_i hc
    right
    obtain ⟨r, hr, heq⟩ := Option.map_eq_some_iff.mp h
    obtain ⟨rfl, rfl⟩ := Prod.mk.inj heq
    exact ⟨rest', r.1, by rw [hskip, hc], hr, rfl⟩
  split at h
  · rename_i hc
    left
    obtain ⟨rfl, rfl⟩ := Prod.mk.inj (Option.some.inj h)
    exact ⟨by rw [hskip, hc], rfl⟩
  · exact absurd h (by simp)

theorem parseMembers_cases {members : List (CString × Value ν)}
    (h : parseMembers text (n + 1) d rest = some (members, behind)) :
    ∃ key rest' v behind', parseString (skipWhitespace rest) = some (key, rest') ∧
      (skipWhitespace rest').head? = some colon ∧
      parseValue text n d (skipWhitespace (skipWhitespace rest').tail) = some (v, behind') ∧
      ((skipWhitespace behind' = closeBrace :: behind ∧ members = [(key, v)]) ∨
        ∃ rest'' members', skipWhitespace behind' = comma :: rest'' ∧
          parseMembers text n d rest'' = some (members', behind) ∧
            members = (key, v) :: members') := by
  rw [parseMembers] at h
  split at h
  · exact absurd h (by simp)
  split at h
  · exact absurd h (by simp)
  rename_i key rest' hkey
  split at h
  · exact absurd h (by simp)
  rename_i c rest'' hcolon
  split at h
  · exact absurd h (by simp)
  rename_i hc
  split at h
  · exact absurd h (by simp)
  rename_i v behind' hv
  refine ⟨key, rest', v, behind', hkey, by simpa [hcolon] using hc, by simpa [hcolon] using hv, ?_⟩
  split at h
  · exact absurd h (by simp)
  rename_i b rest3 hskip
  split at h
  · rename_i hb
    right
    obtain ⟨r, hr, heq⟩ := Option.map_eq_some_iff.mp h
    obtain ⟨rfl, rfl⟩ := Prod.mk.inj heq
    exact ⟨rest3, r.1, by rw [hskip, hb], hr, rfl⟩
  split at h
  · rename_i hb
    left
    obtain ⟨rfl, rfl⟩ := Prod.mk.inj (Option.some.inj h)
    exact ⟨by rw [hskip, hb], rfl⟩
  · exact absurd h (by simp)

/-- Nothing is read that is nested too deep. -/
theorem nesting_parse (n : Nat) :
    (∀ d rest v behind, parseValue text n d rest = some (v, behind) →
      v.nesting = 0 ∨ d + v.nesting ≤ nestingLimit) ∧
    (∀ d rest items behind, parseItems text n d rest = some (items, behind) →
      itemsNesting items = 0 ∨ d + itemsNesting items ≤ nestingLimit) ∧
    ∀ d rest members behind, parseMembers text n d rest = some (members, behind) →
      membersNesting members = 0 ∨ d + membersNesting members ≤ nestingLimit := by
  induction n with
  | zero => simp [parseValue, parseItems, parseMembers]
  | succ n ih =>
    obtain ⟨ihValue, ihItems, ihMembers⟩ := ih
    refine ⟨?_, ?_, ?_⟩
    · intro d rest v behind h
      rcases parseValue_cases h with ⟨hflat, -⟩ | ⟨rest', rfl, hd, h⟩ | ⟨rest', rfl, hd, h⟩
      · exact Or.inl hflat
      · right
        rcases h with ⟨rfl, -⟩ | ⟨items, rfl, hitems⟩
        · simp only [Value.nesting, itemsNesting]
          omega
        · have := ihItems _ _ _ _ hitems
          rw [Value.nesting]
          omega
      · right
        rcases h with ⟨rfl, -⟩ | ⟨members, rfl, hmembers⟩
        · simp only [Value.nesting, membersNesting]
          omega
        · have := ihMembers _ _ _ _ hmembers
          rw [Value.nesting]
          omega
    · intro d rest items behind h
      obtain ⟨v, behind', hv, h⟩ := parseItems_cases h
      have hvalue := ihValue _ _ _ _ hv
      rcases h with ⟨-, rfl⟩ | ⟨rest', items', -, hitems, rfl⟩
      · simp only [itemsNesting]
        omega
      · have := ihItems _ _ _ _ hitems
        rw [itemsNesting]
        omega
    · intro d rest members behind h
      obtain ⟨key, rest', v, behind', -, -, hv, h⟩ := parseMembers_cases h
      have hvalue := ihValue _ _ _ _ hv
      rcases h with ⟨-, rfl⟩ | ⟨rest'', members', -, hmembers, rfl⟩
      · simp only [membersNesting]
        omega
      · have := ihMembers _ _ _ _ hmembers
        rw [membersNesting]
        omega

end Calls

section Texts

variable {ν : Type} {text : NumberText ν} {reread : ν → ν}

theorem zero_not_mem_escape {c : UInt8} (hc : c ≠ 0) : 0 ∉ escape c := by
  have hdigit : ∀ n < 16, hexDigit n ≠ 0 := by decide
  have hlt : ∀ m : Nat, m % 16 < 16 := fun m => Nat.mod_lt m (by decide)
  have hescaped := escaped_escape c
  generalize escape c = l at hescaped
  intro h0
  cases hescaped with
  | plain _ _ => exact hc (by simpa [eq_comm] using h0)
  | simple he =>
    rename_i e
    obtain rfl : e = 0 := by simpa [backslash, eq_comm] using h0
    exact absurd he (by simp [simpleEscape, quote, backslash])
  | unicode _ =>
    simp only [unicodeEscape, List.mem_cons, List.not_mem_nil, or_false] at h0
    rcases h0 with h0 | h0 | h0 | h0 | h0 | h0
    · exact absurd h0 (by decide)
    · exact absurd h0 (by decide)
    · exact hdigit _ (hlt _) h0.symm
    · exact hdigit _ (hlt _) h0.symm
    · exact hdigit _ (hlt _) h0.symm
    · exact hdigit _ (hlt _) h0.symm

theorem zero_not_mem_printStringPtr (s : CString) : 0 ∉ printStringPtr s := by
  intro h0
  simp only [printStringPtr, List.cons_append, List.mem_cons, List.mem_append, List.mem_flatMap,
    List.not_mem_nil, or_false] at h0
  rcases h0 with h0 | ⟨c, hc, h0⟩ | h0
  · exact absurd h0 (by decide)
  · have hne : c ≠ 0 := by
      rintro rfl
      exact s.2 hc
    exact zero_not_mem_escape hne h0
  · exact absurd h0 (by decide)

theorem zero_not_mem_white {format : Bool} {w : List UInt8} (hw : 0 ∉ w) : 0 ∉ white format w := by
  rw [white]
  split
  · exact hw
  · simp

theorem zero_not_mem_tabs (format : Bool) (k : Nat) :
    0 ∉ white format (List.replicate k tab) := by
  apply zero_not_mem_white
  intro h0
  exact absurd (List.eq_of_mem_replicate h0) (by decide)

mutual

theorem zero_not_mem_printValue (h : text.Readable reread) (format : Bool) :
    ∀ (v : Value ν) (k : Nat), 0 ∉ printValue format text k v
  | .null, _ => by simp [printValue, textNull]
  | .bool false, _ => by simp [printValue, textFalse]
  | .bool true, _ => by simp [printValue, textTrue]
  | .number x, _ => by
    rw [printValue, printNumber]
    split
    · rename_i hx
      intro h0
      exact absurd (h.chars x hx 0 h0) (by decide)
    · simp [textNull]
  | .string s, _ => by
    rw [printValue]
    exact zero_not_mem_printStringPtr s
  | .array items, k => by
    have hitems := zero_not_mem_printItems h format items (k + 1)
    simp [printValue, hitems, openBracket, closeBracket]
  | .object members, k => by
    have hmembers := zero_not_mem_printMembers h format members (k + 1)
    have hnewline : 0 ∉ white format [newline] := zero_not_mem_white (by simp [newline])
    simp [printValue, hmembers, hnewline, zero_not_mem_tabs, openBrace, closeBrace]

theorem zero_not_mem_printItems (h : text.Readable reread) (format : Bool) :
    ∀ (items : List (Value ν)) (k : Nat), 0 ∉ printItems format text k items
  | [], _ => by simp [printItems]
  | v :: items, k => by
    have hv := zero_not_mem_printValue h format v k
    have hitems := zero_not_mem_printItems h format items k
    have hspace : 0 ∉ white format [space] := zero_not_mem_white (by simp [space])
    rw [printItems]
    split
    · simp [hv, hitems]
    · simp [hv, hitems, hspace, comma]

theorem zero_not_mem_printMembers (h : text.Readable reread) (format : Bool) :
    ∀ (members : List (CString × Value ν)) (k : Nat), 0 ∉ printMembers format text k members
  | [], _ => by simp [printMembers]
  | (key, v) :: members, k => by
    have hv := zero_not_mem_printValue h format v k
    have hmembers := zero_not_mem_printMembers h format members k
    have hnewline : 0 ∉ white format [newline] := zero_not_mem_white (by simp [newline])
    have htab : 0 ∉ white format [tab] := zero_not_mem_white (by simp [tab])
    rw [printMembers]
    split
    · simp [hv, hmembers, hnewline, htab, zero_not_mem_tabs, zero_not_mem_printStringPtr, colon]
    · simp [hv, hmembers, hnewline, htab, zero_not_mem_tabs, zero_not_mem_printStringPtr, colon,
        comma]

end

theorem print_val (h : text.Readable reread) (format : Bool) (v : Value ν) :
    (print format text v).1 = printValue format text 0 v :=
  congrArg Subtype.val (cString_val ⟨_, zero_not_mem_printValue h format v 0⟩)

/-- What is read of a whole text that was printed, up to its end. -/
theorem parseWithOpts_print (h : text.Readable reread) (format requireNullTerminated : Bool)
    (v : Value ν) :
    parseWithOpts text (print format text v) requireNullTerminated =
      if v.nesting ≤ nestingLimit then some (v.reread text reread, [0]) else none := by
  obtain ⟨c, l, heq, hc, hascii, -⟩ := printValue_head h format 0 v
  have hbom : skipUtf8Bom (printValue format text 0 v ++ [0]) =
      printValue format text 0 v ++ [0] := by
    have hne : c ≠ 0xEF := by
      rintro rfl
      exact absurd hascii (by decide)
    rw [heq, skipUtf8Bom, if_neg]
    simp [hne]
  have hnil : ∀ c ∈ ([] : List UInt8), c.toNat ≤ 32 := by simp
  have hskip : skipWhitespace (printValue format text 0 v ++ [0]) =
      printValue format text 0 v ++ [0] :=
    skipWhitespace_printValue h hnil 0 v [0]
  have hread : parseValue text (2 * (printValue format text 0 v ++ [0]).length + 1) 0
      (printValue format text 0 v ++ [0]) =
        if 0 + v.nesting ≤ nestingLimit then some (v.reread text reread, [0]) else none :=
    parseValue_printValue h v 0 0 _ [0] (by simp; decide) (Nat.zero_le _) (by simp; omega)
  rw [Nat.zero_add] at hread
  have hend : skipWhitespace [0] = [0] := by decide
  rw [parseWithOpts]
  simp only [print_val h format v, hbom, hskip, hread]
  by_cases hdeep : v.nesting ≤ nestingLimit
  · simp only [if_pos hdeep, hend, List.head?_cons, if_true, ite_self]
  · simp only [if_neg hdeep]

/-- Numbers of one digit, and a NaN. -/
def digits : NumberText (Option (Fin 10)) where
  isFinite x := x.isSome
  sprintf x := (x.map fun digit => UInt8.ofNat (0x30 + digit)).toList
  strtod content := content.head?.bind fun c =>
    if h : 0x30 ≤ c.toNat ∧ c.toNat ≤ 0x39 then some (some ⟨c.toNat - 0x30, by omega⟩, 1) else none

theorem digits_readable : digits.Readable id where
  first := by
    rintro (_ | digit) hx
    · exact absurd hx (by decide)
    · refine ⟨_, _, rfl, ?_⟩
      revert digit
      decide
  chars := by
    rintro (_ | digit) hx c hc
    · exact absurd hx (by decide)
    · obtain rfl := List.mem_singleton.mp hc
      revert digit
      decide
  strtod := by decide

/-- What `cJSON_Parse` makes of a text that `cJSON_Print` or `cJSON_PrintUnformatted` wrote: the
value, with every number as its text tells it, unless it is nested deeper than the limit. -/
theorem parse_print (h : text.Readable reread) (format : Bool) (v : Value ν) :
    parse text (print format text v) =
      if v.nesting ≤ nestingLimit then some (v.reread text reread) else none := by
  rw [parse, parseWithOpts_print h format false v]
  split <;> rfl

theorem parse_print_digits :
    parse digits (print true digits (.array [.number (some 7), .number none])) =
      some (.array [.number (some 7), .null]) :=
  parse_print digits_readable true (.array [.number (some 7), .number none])

/-- What was read can be printed and is read again. -/
theorem parse_print_parse (h : text.Readable reread) (format : Bool) {value : CString} {v : Value ν}
    (hread : parse text value = some v) :
    parse text (print format text v) = some (v.reread text reread) := by
  obtain ⟨⟨u, rest⟩, hopts, rfl⟩ := Option.map_eq_some_iff.mp hread
  rw [parseWithOpts] at hopts
  simp only [Bool.false_eq_true, if_false] at hopts
  split at hopts
  · exact absurd hopts (by simp)
  rename_i u' rest' hvalue
  obtain ⟨rfl, rfl⟩ := Prod.mk.inj (Option.some.inj hopts)
  have hnesting := (nesting_parse _).1 _ _ _ _ hvalue
  have hshallow : u'.nesting ≤ nestingLimit := by omega
  rw [parse, parseWithOpts_print h format false u', if_pos hshallow]
  rfl

theorem parse_print_spaced :
    parse digits (print true digits (.array [.number (some 7)])) =
      some (.array [.number (some 7)]) :=
  have hread : parse digits ⟨[0x5B, 0x20, 0x37, 0x20, 0x5D], by decide⟩ =
      some (.array [.number (some 7)]) := rfl
  parse_print_parse digits_readable true hread

end Texts

end Json

end SatComm
