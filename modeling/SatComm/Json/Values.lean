import SatComm.Json.Strings

/-!
# Values of a JSON text

`cJSON_Print` writes a value with white space, `cJSON_PrintUnformatted` without, and `cJSON_Parse`
reads one from a C string. How a number is written and read is a parameter. `parse_print` tells what
is read from what was printed: the value, unless it is nested deeper than the parser goes.
`parse_print_parse` is that nothing is lost of what was read itself.
-/

namespace SatComm

namespace Json

inductive Value (ν : Type)
  | null
  | bool (b : Bool)
  | number (x : ν)
  | string (s : CString)
  | array (items : List (Value ν))
  | object (members : List (CString × Value ν))

/-- `sprintf` and `strtod`: the text of a number that is neither a NaN nor infinite; a number at the
start of a text, and how many characters it takes. -/
structure NumberText (ν : Type) where
  isFinite : ν → Bool
  sprintf : ν → List UInt8
  strtod : List UInt8 → Option (ν × Nat)

/-- `CJSON_NESTING_LIMIT` -/
def nestingLimit : Nat := 1000

def textNull : List UInt8 := [0x6E, 0x75, 0x6C, 0x6C]
def textFalse : List UInt8 := [0x66, 0x61, 0x6C, 0x73, 0x65]
def textTrue : List UInt8 := [0x74, 0x72, 0x75, 0x65]

def openBracket : UInt8 := 0x5B
def closeBracket : UInt8 := 0x5D
def openBrace : UInt8 := 0x7B
def closeBrace : UInt8 := 0x7D
def comma : UInt8 := 0x2C
def colon : UInt8 := 0x3A
def tab : UInt8 := 0x09
def newline : UInt8 := 0x0A
def space : UInt8 := 0x20

section Print

variable {ν : Type} (format : Bool) (text : NumberText ν)

/-- White space that is only written with `format`. -/
def white (w : List UInt8) : List UInt8 := if format then w else []

def printNumber (x : ν) : List UInt8 := if text.isFinite x then text.sprintf x else textNull

mutual

/-- `depth` is that of the print buffer. -/
def printValue (depth : Nat) : Value ν → List UInt8
  | .null => textNull
  | .bool false => textFalse
  | .bool true => textTrue
  | .number x => printNumber text x
  | .string s => printStringPtr s
  | .array items => openBracket :: printItems (depth + 1) items ++ [closeBracket]
  | .object members =>
    openBrace :: white format [newline] ++ printMembers (depth + 1) members ++
      white format (List.replicate depth tab) ++ [closeBrace]

def printItems (depth : Nat) : List (Value ν) → List UInt8
  | [] => []
  | v :: items =>
    printValue depth v ++ (if items.isEmpty then [] else comma :: white format [space]) ++
      printItems depth items

def printMembers (depth : Nat) : List (CString × Value ν) → List UInt8
  | [] => []
  | (key, v) :: members =>
    white format (List.replicate depth tab) ++ printStringPtr key ++ colon :: white format [tab] ++
      printValue depth v ++ (if members.isEmpty then [] else [comma]) ++ white format [newline] ++
      printMembers depth members

end

/-- `cJSON_Print` or `cJSON_PrintUnformatted` -/
def print (v : Value ν) : CString := cString (printValue format text 0 v)

end Print

section Parse

variable {ν : Type} (text : NumberText ν)

/-- `buffer_skip_whitespace`, which steps back to the last character at the end of the buffer. -/
def skipWhitespace (rest : List UInt8) : List UInt8 :=
  let skipped := rest.dropWhile fun c => c.toNat ≤ 32
  if skipped = [] then rest.drop (rest.length - 1) else skipped

def isNumberChar (c : UInt8) : Bool :=
  (0x30 ≤ c.toNat ∧ c.toNat ≤ 0x39) ∨ c.toNat = 0x2B ∨ c.toNat = 0x2D ∨ c.toNat = 0x65 ∨
    c.toNat = 0x45 ∨ c.toNat = 0x2E

def parseNumber (rest : List UInt8) : Option (Value ν × List UInt8) :=
  match text.strtod (rest.takeWhile isNumberChar) with
  | none => none
  | some (x, length) => if length = 0 then none else some (.number x, rest.drop length)

mutual

/-- `depth` is that of the parse buffer; the first argument bounds the calls. -/
def parseValue : Nat → Nat → List UInt8 → Option (Value ν × List UInt8)
  | 0, _, _ => none
  | n + 1, depth, rest =>
    if rest.take 4 = textNull then some (.null, rest.drop 4)
    else if rest.take 5 = textFalse then some (.bool false, rest.drop 5)
    else if rest.take 4 = textTrue then some (.bool true, rest.drop 4)
    else
      match rest with
      | [] => none
      | c :: rest' =>
        if c = quote then (parseString (c :: rest')).map fun r => (.string r.1, r.2)
        else if c.toNat = 0x2D ∨ 0x30 ≤ c.toNat ∧ c.toNat ≤ 0x39 then parseNumber text (c :: rest')
        else if c = openBracket then
          if nestingLimit ≤ depth then none
          else
            match skipWhitespace rest' with
            | [] => none
            | d :: rest'' =>
              if d = closeBracket then some (.array [], rest'')
              else (parseItems n (depth + 1) (d :: rest'')).map fun r => (.array r.1, r.2)
        else if c = openBrace then
          if nestingLimit ≤ depth then none
          else
            match skipWhitespace rest' with
            | [] => none
            | d :: rest'' =>
              if d = closeBrace then some (.object [], rest'')
              else (parseMembers n (depth + 1) (d :: rest'')).map fun r => (.object r.1, r.2)
        else none

/-- The loop of `parse_array`. -/
def parseItems : Nat → Nat → List UInt8 → Option (List (Value ν) × List UInt8)
  | 0, _, _ => none
  | n + 1, depth, rest =>
    match parseValue n depth (skipWhitespace rest) with
    | none => none
    | some (v, behind) =>
      match skipWhitespace behind with
      | [] => none
      | c :: rest' =>
        if c = comma then (parseItems n depth rest').map fun r => (v :: r.1, r.2)
        else if c = closeBracket then some ([v], rest')
        else none

/-- The loop of `parse_object`. -/
def parseMembers : Nat → Nat → List UInt8 → Option (List (CString × Value ν) × List UInt8)
  | 0, _, _ => none
  | n + 1, depth, rest =>
    if rest = [] then none
    else
      match parseString (skipWhitespace rest) with
      | none => none
      | some (key, behind) =>
        match skipWhitespace behind with
        | [] => none
        | c :: rest' =>
          if c ≠ colon then none
          else
            match parseValue n depth (skipWhitespace rest') with
            | none => none
            | some (v, behind') =>
              match skipWhitespace behind' with
              | [] => none
              | d :: rest'' =>
                if d = comma then (parseMembers n depth rest'').map fun r => ((key, v) :: r.1, r.2)
                else if d = closeBrace then some ([(key, v)], rest'')
                else none

end

/-- `skip_utf8_bom` -/
def skipUtf8Bom (content : List UInt8) : List UInt8 :=
  if 4 < content.length ∧ content.take 3 = [0xEF, 0xBB, 0xBF] then content.drop 3 else content

/-- `cJSON_ParseWithOpts`; a C string is read with its end. -/
def parseWithOpts (value : CString) (requireNullTerminated : Bool) :
    Option (Value ν × List UInt8) :=
  let content := value.1 ++ [0]
  match parseValue text (2 * content.length + 1) 0 (skipWhitespace (skipUtf8Bom content)) with
  | none => none
  | some (v, rest) =>
    if requireNullTerminated then
      if (skipWhitespace rest).head? = some 0 then some (v, skipWhitespace rest) else none
    else some (v, rest)

/-- `cJSON_Parse` -/
def parse (value : CString) : Option (Value ν) := (parseWithOpts text value false).map Prod.fst

end Parse

section Nesting

variable {ν : Type}

mutual

/-- How deep arrays and objects are nested. -/
def Value.nesting : Value ν → Nat
  | .null => 0
  | .bool _ => 0
  | .number _ => 0
  | .string _ => 0
  | .array items => itemsNesting items + 1
  | .object members => membersNesting members + 1

def itemsNesting : List (Value ν) → Nat
  | [] => 0
  | v :: items => max v.nesting (itemsNesting items)

def membersNesting : List (CString × Value ν) → Nat
  | [] => 0
  | (_, v) :: members => max v.nesting (membersNesting members)

end

end Nesting

section Reread

variable {ν : Type} (text : NumberText ν) (reread : ν → ν)

mutual

/-- What is left of a value that was printed and is read: a NaN is a null. -/
def Value.reread : Value ν → Value ν
  | .null => .null
  | .bool b => .bool b
  | .number x => if text.isFinite x then .number (reread x) else .null
  | .string s => .string s
  | .array items => .array (rereadItems items)
  | .object members => .object (rereadMembers members)

def rereadItems : List (Value ν) → List (Value ν)
  | [] => []
  | v :: items => v.reread :: rereadItems items

def rereadMembers : List (CString × Value ν) → List (CString × Value ν)
  | [] => []
  | (key, v) :: members => (key, v.reread) :: rereadMembers members

end

/-- The text of a number is one number for `strtod`, in characters that `parse_number` takes. -/
structure NumberText.Readable : Prop where
  first : ∀ x, text.isFinite x → ∃ c l, text.sprintf x = c :: l ∧
    (c.toNat = 0x2D ∨ 0x30 ≤ c.toNat ∧ c.toNat ≤ 0x39)
  chars : ∀ x, text.isFinite x → ∀ c ∈ text.sprintf x, isNumberChar c
  strtod : ∀ x, text.isFinite x →
    text.strtod (text.sprintf x) = some (reread x, (text.sprintf x).length)

end Reread

section Whitespace

theorem skipWhitespace_cons {c : UInt8} (hc : 32 < c.toNat) (rest : List UInt8) :
    skipWhitespace (c :: rest) = c :: rest := by
  have hskip : ¬ c.toNat ≤ 32 := not_le.mpr hc
  simp [skipWhitespace, hskip]

theorem skipWhitespace_append {w : List UInt8} (hw : ∀ c ∈ w, c.toNat ≤ 32) {c : UInt8}
    (hc : 32 < c.toNat) (rest : List UInt8) : skipWhitespace (w ++ c :: rest) = c :: rest := by
  have hskip : ¬ c.toNat ≤ 32 := not_le.mpr hc
  have hdrop : (w ++ c :: rest).dropWhile (fun c => c.toNat ≤ 32) = c :: rest := by
    rw [List.dropWhile_append_of_pos (by simpa using hw)]
    simp [hskip]
  simp [skipWhitespace, hdrop]

end Whitespace

section Steps

variable {ν : Type} {text : NumberText ν} {n d : Nat} {rest : List UInt8}

attribute [local simp] parseValue parseItems parseMembers

theorem parseValue_null : parseValue text (n + 1) d (textNull ++ rest) = some (.null, rest) := by
  simp [textNull]

theorem parseValue_false :
    parseValue text (n + 1) d (textFalse ++ rest) = some (.bool false, rest) := by
  simp [textNull, textFalse]

theorem parseValue_true :
    parseValue text (n + 1) d (textTrue ++ rest) = some (.bool true, rest) := by
  simp [textNull, textFalse, textTrue]

theorem parseValue_string :
    parseValue text (n + 1) d (quote :: rest) =
      (parseString (quote :: rest)).map fun r => (.string r.1, r.2) := by
  simp [textNull, textFalse, textTrue, quote]

theorem parseValue_number {c : UInt8} (hc : c.toNat = 0x2D ∨ 0x30 ≤ c.toNat ∧ c.toNat ≤ 0x39) :
    parseValue text (n + 1) d (c :: rest) = parseNumber text (c :: rest) := by
  have hne : ∀ b : UInt8, b.toNat < 0x2D ∨ 0x39 < b.toNat → c ≠ b := by
    rintro b hb rfl
    omega
  have hnull := hne 0x6E (by decide)
  have hfalse := hne 0x66 (by decide)
  have htrue := hne 0x74 (by decide)
  have hquote := hne quote (by decide)
  simp [textNull, textFalse, textTrue, hnull, hfalse, htrue, hquote, hc]

theorem parseValue_openBracket :
    parseValue text (n + 1) d (openBracket :: rest) =
      if nestingLimit ≤ d then none
      else if skipWhitespace rest = [] then none
      else if (skipWhitespace rest).head? = some closeBracket then
        some (.array [], (skipWhitespace rest).tail)
      else (parseItems text n (d + 1) (skipWhitespace rest)).map fun r => (.array r.1, r.2) := by
  cases hskip : skipWhitespace rest with
  | nil => simp [textNull, textFalse, textTrue, openBracket, quote, hskip]
  | cons c l => simp [textNull, textFalse, textTrue, openBracket, quote, hskip]

theorem parseValue_openBrace :
    parseValue text (n + 1) d (openBrace :: rest) =
      if nestingLimit ≤ d then none
      else if skipWhitespace rest = [] then none
      else if (skipWhitespace rest).head? = some closeBrace then
        some (.object [], (skipWhitespace rest).tail)
      else (parseMembers text n (d + 1) (skipWhitespace rest)).map fun r => (.object r.1, r.2) := by
  cases hskip : skipWhitespace rest with
  | nil => simp [textNull, textFalse, textTrue, openBrace, openBracket, quote, hskip]
  | cons c l =>
    simp [textNull, textFalse, textTrue, openBrace, openBracket, quote, hskip]

theorem parseItems_none (hv : parseValue text n d (skipWhitespace rest) = none) :
    parseItems text (n + 1) d rest = none := by
  rw [parseItems, hv]

theorem parseItems_comma {v : Value ν} {behind rest' : List UInt8}
    (hv : parseValue text n d (skipWhitespace rest) = some (v, behind))
    (hb : skipWhitespace behind = comma :: rest') :
    parseItems text (n + 1) d rest = (parseItems text n d rest').map fun r => (v :: r.1, r.2) := by
  simp [hv, hb]

theorem parseItems_last {v : Value ν} {behind rest' : List UInt8}
    (hv : parseValue text n d (skipWhitespace rest) = some (v, behind))
    (hb : skipWhitespace behind = closeBracket :: rest') :
    parseItems text (n + 1) d rest = some ([v], rest') := by
  simp [hv, hb, closeBracket, comma]

variable {key : CString} {rest' : List UInt8}

/-- The loop has a member in front. -/
theorem ne_nil_of_key (hkey : skipWhitespace rest = printStringPtr key ++ colon :: rest') :
    rest ≠ [] := by
  rintro rfl
  simp [skipWhitespace, printStringPtr] at hkey

theorem parseMembers_none (hkey : skipWhitespace rest = printStringPtr key ++ colon :: rest')
    (hv : parseValue text n d (skipWhitespace rest') = none) :
    parseMembers text (n + 1) d rest = none := by
  have hcolon : skipWhitespace (colon :: rest') = colon :: rest' :=
    skipWhitespace_cons (by decide) rest'
  simp [hkey, parseString_printStringPtr, hcolon, hv]

theorem parseMembers_comma {v : Value ν} {behind rest'' : List UInt8}
    (hkey : skipWhitespace rest = printStringPtr key ++ colon :: rest')
    (hv : parseValue text n d (skipWhitespace rest') = some (v, behind))
    (hb : skipWhitespace behind = comma :: rest'') :
    parseMembers text (n + 1) d rest =
      (parseMembers text n d rest'').map fun r => ((key, v) :: r.1, r.2) := by
  have hcolon : skipWhitespace (colon :: rest') = colon :: rest' :=
    skipWhitespace_cons (by decide) rest'
  simp [ne_nil_of_key hkey, hkey, parseString_printStringPtr, hcolon, hv, hb]

theorem parseMembers_last {v : Value ν} {behind rest'' : List UInt8}
    (hkey : skipWhitespace rest = printStringPtr key ++ colon :: rest')
    (hv : parseValue text n d (skipWhitespace rest') = some (v, behind))
    (hb : skipWhitespace behind = closeBrace :: rest'') :
    parseMembers text (n + 1) d rest = some ([(key, v)], rest'') := by
  have hcolon : skipWhitespace (colon :: rest') = colon :: rest' :=
    skipWhitespace_cons (by decide) rest'
  have hne : closeBrace ≠ comma := by decide
  simp [ne_nil_of_key hkey, hkey, parseString_printStringPtr, hcolon, hv, hb, hne]

end Steps

section Printed

variable {ν : Type} {text : NumberText ν} {reread : ν → ν} {format : Bool}

theorem white_le {w : List UInt8} (hw : ∀ c ∈ w, c.toNat ≤ 32) :
    ∀ c ∈ white format w, c.toNat ≤ 32 := by
  rw [white]
  split
  · exact hw
  · simp

theorem tabs_le (format : Bool) (k : Nat) :
    ∀ c ∈ white format (List.replicate k tab), c.toNat ≤ 32 := by
  apply white_le
  intro c hc
  rw [List.eq_of_mem_replicate hc]
  decide

theorem newline_le (format : Bool) : ∀ c ∈ white format [newline], c.toNat ≤ 32 :=
  white_le (by simp [newline])

theorem not_number_of_le {c : UInt8} (hc : c.toNat ≤ 32) : isNumberChar c = false := by
  simp only [isNumberChar, decide_eq_false_iff_not]
  omega

/-- The end of an object is no part of a number in front of it. -/
theorem not_number_closeBrace {w : List UInt8} (hw : ∀ c ∈ w, c.toNat ≤ 32) (rest : List UInt8) :
    ∀ c ∈ (w ++ closeBrace :: rest).head?, isNumberChar c = false := by
  cases w with
  | nil =>
    intro c hc
    obtain rfl : closeBrace = c := by simpa using hc
    decide
  | cons b w =>
    intro c hc
    obtain rfl : b = c := by simpa using hc
    exact not_number_of_le (hw b List.mem_cons_self)

/-- What is printed begins with a character that is neither white space nor the end of an array. -/
theorem printValue_head (h : text.Readable reread) (format : Bool) (k : Nat) (v : Value ν) :
    ∃ c l, printValue format text k v = c :: l ∧ 32 < c.toNat ∧ c.toNat < 128 ∧
      c ≠ closeBracket := by
  have hnull : ∃ c l, textNull = c :: l ∧ 32 < c.toNat ∧ c.toNat < 128 ∧ c ≠ closeBracket :=
    ⟨_, _, rfl, by decide⟩
  cases v with
  | null => exact hnull
  | bool b => cases b <;> exact ⟨_, _, rfl, by decide⟩
  | number x =>
    rw [printValue, printNumber]
    split
    · rename_i hx
      obtain ⟨c, l, heq, hc⟩ := h.first x hx
      refine ⟨c, l, heq, by omega, by omega, ?_⟩
      rintro rfl
      revert hc
      decide
    · exact hnull
  | string s => exact ⟨_, _, rfl, by decide⟩
  | array items =>
    rw [printValue]
    exact ⟨_, _, rfl, by decide⟩
  | object members =>
    rw [printValue]
    exact ⟨_, _, rfl, by decide⟩

theorem skipWhitespace_printValue (h : text.Readable reread) {w : List UInt8}
    (hw : ∀ c ∈ w, c.toNat ≤ 32) (k : Nat) (v : Value ν) (rest : List UInt8) :
    skipWhitespace (w ++ (printValue format text k v ++ rest)) =
      printValue format text k v ++ rest := by
  obtain ⟨c, l, heq, hc, -⟩ := printValue_head h format k v
  rw [heq]
  exact skipWhitespace_append hw hc (l ++ rest)

theorem printItems_cons (format : Bool) (text : NumberText ν) (k : Nat) (v : Value ν)
    (items : List (Value ν)) (rest : List UInt8) :
    printItems format text k (v :: items) ++ rest =
      printValue format text k v ++
        ((if items.isEmpty then [] else comma :: white format [space]) ++
          (printItems format text k items ++ rest)) := by
  simp [printItems]

/-- A member is read from its key on. -/
theorem skipWhitespace_printMembers (format : Bool) (text : NumberText ν) (k : Nat)
    (key : CString) (v : Value ν) (members : List (CString × Value ν)) {w : List UInt8} (hw : ∀ c ∈ w, c.toNat ≤ 32)
    (rest : List UInt8) :
    skipWhitespace (w ++ (printMembers format text k ((key, v) :: members) ++ rest)) =
      printStringPtr key ++ colon :: (white format [tab] ++ (printValue format text k v ++
        ((if members.isEmpty then [] else [comma]) ++ (white format [newline] ++
          (printMembers format text k members ++ rest))))) := by
  have hwhite : ∀ c ∈ w ++ white format (List.replicate k tab), c.toNat ≤ 32 := by
    intro c hc
    rcases List.mem_append.mp hc with hc | hc
    · exact hw c hc
    · exact tabs_le format k c hc
  have hquote : 32 < quote.toNat := by decide
  have hskip := skipWhitespace_append hwhite hquote (key.1.flatMap escape ++ [quote] ++ colon ::
    (white format [tab] ++ (printValue format text k v ++
        ((if members.isEmpty then [] else [comma]) ++ (white format [newline] ++
          (printMembers format text k members ++ rest))))))
  simpa [printMembers, printStringPtr] using hskip

/-- White space in front of the members makes no difference. -/
theorem skipWhitespace_white_printMembers (k : Nat) {members : List (CString × Value ν)}
    (hne : members ≠ []) {w : List UInt8} (hw : ∀ c ∈ w, c.toNat ≤ 32) (rest : List UInt8) :
    skipWhitespace (w ++ (printMembers format text k members ++ rest)) =
      skipWhitespace (printMembers format text k members ++ rest) := by
  cases members with
  | nil => exact absurd rfl hne
  | cons m members =>
    obtain ⟨key, v⟩ := m
    have hnil : ∀ c ∈ ([] : List UInt8), c.toNat ≤ 32 := by simp
    have hnone := skipWhitespace_printMembers format text k key v members hnil rest
    rw [skipWhitespace_printMembers format text k key v members hw rest]
    exact hnone.symm

/-- `strtod` takes the text that was printed and stops where it ends. -/
theorem parseNumber_sprintf (h : text.Readable reread) {x : ν} (hx : text.isFinite x)
    {rest : List UInt8} (hrest : ∀ c ∈ rest.head?, isNumberChar c = false) :
    parseNumber text (text.sprintf x ++ rest) = some (.number (reread x), rest) := by
  have htake : (text.sprintf x ++ rest).takeWhile isNumberChar = text.sprintf x := by
    rw [List.takeWhile_append_of_pos (h.chars x hx)]
    cases rest with
    | nil => simp
    | cons c rest => simp [hrest c rfl]
  obtain ⟨c, l, heq, -⟩ := h.first x hx
  have hlen : (text.sprintf x).length ≠ 0 := by simp [heq]
  rw [parseNumber, htake, h.strtod x hx]
  simp only [if_neg hlen, List.drop_left]

end Printed

section RoundTrip

variable {ν : Type} (text : NumberText ν) (reread : ν → ν) (format : Bool)

/-- The value is read from what was printed of it, unless the parser would have to go too deep. -/
def Value.ReadBack (v : Value ν) : Prop :=
  ∀ (k d n : Nat) (rest : List UInt8), (∀ c ∈ rest.head?, isNumberChar c = false) →
    d ≤ nestingLimit → 2 * (printValue format text k v).length ≤ n →
    parseValue text n d (printValue format text k v ++ rest) =
      if d + v.nesting ≤ nestingLimit then some (v.reread text reread, rest) else none

def ItemsReadBack (items : List (Value ν)) : Prop :=
  ∀ (k d n : Nat) (l rest : List UInt8), d ≤ nestingLimit →
    2 * (printItems format text k items).length + 1 ≤ n →
    skipWhitespace l = printItems format text k items ++ closeBracket :: rest →
    parseItems text n d l =
      if d + itemsNesting items ≤ nestingLimit then some (rereadItems text reread items, rest)
      else none

def MembersReadBack (members : List (CString × Value ν)) : Prop :=
  ∀ (k d n : Nat) (w l rest : List UInt8), d ≤ nestingLimit → (∀ c ∈ w, c.toNat ≤ 32) →
    2 * (printMembers format text k members).length + 1 ≤ n →
    skipWhitespace l =
      skipWhitespace (printMembers format text k members ++ (w ++ closeBrace :: rest)) →
    parseMembers text n d l =
      if d + membersNesting members ≤ nestingLimit then
        some (rereadMembers text reread members, rest)
      else none

variable {text : NumberText ν} {reread : ν → ν} {format : Bool}

theorem readBack_null : (Value.null : Value ν).ReadBack text reread format := by
  intro k d n rest _ hd hn
  obtain ⟨n, rfl⟩ : ∃ m, n = m + 1 := ⟨n - 1, by simp [printValue, textNull] at hn; omega⟩
  have hflat : d + 0 ≤ nestingLimit := hd
  rw [printValue, parseValue_null, Value.nesting, if_pos hflat, Value.reread]

theorem readBack_bool (b : Bool) : (Value.bool b : Value ν).ReadBack text reread format := by
  intro k d n rest _ hd hn
  obtain ⟨n, rfl⟩ : ∃ m, n = m + 1 :=
    ⟨n - 1, by cases b <;> simp [printValue, textFalse, textTrue] at hn <;> omega⟩
  have hflat : d + 0 ≤ nestingLimit := hd
  rw [Value.nesting, if_pos hflat, Value.reread]
  cases b with
  | false => rw [printValue, parseValue_false]
  | true => rw [printValue, parseValue_true]

theorem readBack_number (h : text.Readable reread) (x : ν) :
    (Value.number x).ReadBack text reread format := by
  intro k d n rest hrest hd hn
  rw [printValue, printNumber] at hn ⊢
  have hflat : d + 0 ≤ nestingLimit := hd
  rw [Value.nesting, if_pos hflat, Value.reread]
  by_cases hx : text.isFinite x
  · rw [if_pos hx] at hn ⊢
    rw [if_pos hx]
    obtain ⟨c, l, heq, hc⟩ := h.first x hx
    have hnumber := parseNumber_sprintf h hx hrest
    rw [heq] at hn hnumber ⊢
    obtain ⟨n, rfl⟩ : ∃ m, n = m + 1 := ⟨n - 1, by simp at hn; omega⟩
    exact (parseValue_number hc).trans hnumber
  · rw [if_neg hx] at hn ⊢
    rw [if_neg hx]
    obtain ⟨n, rfl⟩ : ∃ m, n = m + 1 := ⟨n - 1, by simp [textNull] at hn; omega⟩
    exact parseValue_null

theorem readBack_string (s : CString) :
    (Value.string s : Value ν).ReadBack text reread format := by
  intro k d n rest _ hd hn
  obtain ⟨n, rfl⟩ : ∃ m, n = m + 1 := ⟨n - 1, by simp [printValue, printStringPtr] at hn; omega⟩
  have hstring := parseString_printStringPtr s rest
  have hflat : d + 0 ≤ nestingLimit := hd
  rw [Value.nesting, if_pos hflat, Value.reread, printValue]
  rw [printStringPtr, List.cons_append, List.cons_append] at hstring ⊢
  rw [parseValue_string, hstring]
  rfl

theorem readBack_array_nil : (Value.array [] : Value ν).ReadBack text reread format := by
  intro k d n rest _ hd hn
  obtain ⟨n, rfl⟩ : ∃ m, n = m + 1 := ⟨n - 1, by simp [printValue] at hn; omega⟩
  have hprint : printValue format text k (.array []) ++ rest =
      openBracket :: closeBracket :: rest := by
    simp [printValue, printItems]
  have hskip : skipWhitespace (closeBracket :: rest) = closeBracket :: rest :=
    skipWhitespace_cons (by decide) rest
  rw [hprint, parseValue_openBracket, Value.nesting, Value.reread, itemsNesting]
  by_cases hdeep : nestingLimit ≤ d
  · rw [if_pos hdeep, if_neg (by omega)]
  · have hshallow : d + (0 + 1) ≤ nestingLimit := by omega
    rw [if_neg hdeep, if_pos hshallow, hskip]
    rfl

theorem readBack_array (h : text.Readable reread) {items : List (Value ν)} (hne : items ≠ [])
    (hitems : ItemsReadBack text reread format items) :
    (Value.array items).ReadBack text reread format := by
  intro k d n rest _ hd hn
  have hlen : 2 ≤ (printValue format text k (.array items)).length := by simp [printValue]
  obtain ⟨n, rfl⟩ : ∃ m, n = m + 1 := ⟨n - 1, by omega⟩
  have hprint : printValue format text k (.array items) ++ rest =
      openBracket :: (printItems format text (k + 1) items ++ closeBracket :: rest) := by
    simp [printValue]
  rw [hprint, parseValue_openBracket, Value.nesting, Value.reread]
  by_cases hdeep : nestingLimit ≤ d
  · rw [if_pos hdeep, if_neg (by omega)]
  rw [if_neg hdeep]
  -- what follows the bracket is the first item, which is no closing bracket
  obtain ⟨c, l, hl, hc, hskip⟩ : ∃ c l, printItems format text (k + 1) items ++
      closeBracket :: rest = c :: l ∧ c ≠ closeBracket ∧ skipWhitespace (c :: l) = c :: l := by
    obtain ⟨v, items, rfl⟩ := List.exists_cons_of_ne_nil hne
    obtain ⟨c, l, heq, hblank, -, hc⟩ := printValue_head h format (k + 1) v
    rw [printItems_cons, heq]
    exact ⟨c, _, rfl, hc, skipWhitespace_cons hblank _⟩
  have hread := hitems (k + 1) (d + 1) n (c :: l) rest (by omega)
    (by simp [printValue] at hn ⊢; omega) (hskip.trans hl.symm)
  rw [hl, hskip, hread, if_neg (List.cons_ne_nil c l), List.head?_cons, if_neg (by simpa using hc)]
  have hadd : d + 1 + itemsNesting items = d + (itemsNesting items + 1) := by omega
  rw [hadd]
  split <;> rfl

theorem readBack_object_nil : (Value.object [] : Value ν).ReadBack text reread format := by
  intro k d n rest _ hd hn
  obtain ⟨n, rfl⟩ : ∃ m, n = m + 1 := ⟨n - 1, by simp [printValue] at hn; omega⟩
  have hprint : printValue format text k (.object []) ++ rest =
      openBrace :: (white format [newline] ++ white format (List.replicate k tab) ++
        closeBrace :: rest) := by
    simp [printValue, printMembers]
  have hwhite : ∀ c ∈ white format [newline] ++ white format (List.replicate k tab),
      c.toNat ≤ 32 := by
    intro c hc
    rcases List.mem_append.mp hc with hc | hc
    · exact newline_le format c hc
    · exact tabs_le format k c hc
  have hskip := skipWhitespace_append hwhite (show 32 < closeBrace.toNat by decide) rest
  rw [hprint, parseValue_openBrace, Value.nesting, Value.reread, membersNesting]
  by_cases hdeep : nestingLimit ≤ d
  · rw [if_pos hdeep, if_neg (by omega)]
  · have hshallow : d + (0 + 1) ≤ nestingLimit := by omega
    rw [if_neg hdeep, if_pos hshallow, hskip]
    rfl

theorem readBack_object {members : List (CString × Value ν)} (hne : members ≠ [])
    (hmembers : MembersReadBack text reread format members) :
    (Value.object members).ReadBack text reread format := by
  intro k d n rest _ hd hn
  have hlen : 2 ≤ (printValue format text k (.object members)).length := by
    simp [printValue]
    omega
  obtain ⟨n, rfl⟩ : ∃ m, n = m + 1 := ⟨n - 1, by omega⟩
  have hprint : printValue format text k (.object members) ++ rest =
      openBrace :: (white format [newline] ++ (printMembers format text (k + 1) members ++
        (white format (List.replicate k tab) ++ closeBrace :: rest))) := by
    simp [printValue]
  rw [hprint, parseValue_openBrace, Value.nesting, Value.reread]
  by_cases hdeep : nestingLimit ≤ d
  · rw [if_pos hdeep, if_neg (by omega)]
  rw [if_neg hdeep]
  -- what follows the brace is the quote of the first key
  obtain ⟨l, hl⟩ : ∃ l, skipWhitespace (white format [newline] ++
      (printMembers format text (k + 1) members ++
        (white format (List.replicate k tab) ++ closeBrace :: rest))) = quote :: l := by
    obtain ⟨⟨key, v⟩, members, rfl⟩ := List.exists_cons_of_ne_nil hne
    rw [skipWhitespace_printMembers format text (k + 1) key v members (newline_le format)]
    exact ⟨_, rfl⟩
  have hquote : skipWhitespace (quote :: l) = quote :: l := skipWhitespace_cons (by decide) l
  have hread := hmembers (k + 1) (d + 1) n (white format (List.replicate k tab)) (quote :: l) rest
    (by omega) (tabs_le format k) (by simp [printValue] at hn ⊢; omega)
    (by rw [hquote, ← hl, skipWhitespace_white_printMembers (k + 1) hne (newline_le format)])
  rw [hl, hread, if_neg (List.cons_ne_nil quote l), List.head?_cons, if_neg (by decide)]
  have hadd : d + 1 + membersNesting members = d + (membersNesting members + 1) := by omega
  rw [hadd]
  split <;> rfl

theorem itemsReadBack_singleton {v : Value ν} (hread : v.ReadBack text reread format) :
    ItemsReadBack text reread format [v] := by
  intro k d n l rest hd hn hl
  obtain ⟨n, rfl⟩ : ∃ m, n = m + 1 := ⟨n - 1, by omega⟩
  rw [printItems_cons] at hl
  have hlen := congrArg List.length (printItems_cons format text k v [] [])
  simp only [List.append_nil, List.length_append] at hlen
  have hv := hread k d n (closeBracket :: rest) (by simp; decide) hd (by omega)
  have hl' : skipWhitespace l = printValue format text k v ++ closeBracket :: rest := hl
  rw [← hl'] at hv
  have hskip : skipWhitespace (closeBracket :: rest) = closeBracket :: rest :=
    skipWhitespace_cons (by decide) rest
  have hmax : max v.nesting (itemsNesting ([] : List (Value ν))) = v.nesting :=
    Nat.max_eq_left (Nat.zero_le _)
  rw [itemsNesting, rereadItems, hmax]
  by_cases hdeep : d + v.nesting ≤ nestingLimit
  · rw [if_pos hdeep] at hv ⊢
    exact parseItems_last hv hskip
  · rw [if_neg hdeep] at hv ⊢
    exact parseItems_none hv

theorem itemsReadBack_cons (h : text.Readable reread) {v : Value ν} {items : List (Value ν)}
    (hne : items ≠ []) (hread : v.ReadBack text reread format)
    (hrest : ItemsReadBack text reread format items) :
    ItemsReadBack text reread format (v :: items) := by
  intro k d n l rest hd hn hl
  obtain ⟨n, rfl⟩ : ∃ m, n = m + 1 := ⟨n - 1, by omega⟩
  obtain ⟨w, items, rfl⟩ := List.exists_cons_of_ne_nil hne
  rw [printItems_cons] at hl
  have hlen := congrArg List.length (printItems_cons format text k v (w :: items) [])
  simp only [List.append_nil, List.length_append] at hlen
  rw [itemsNesting, rereadItems]
  have hv := hread k d n (comma :: (white format [space] ++
    (printItems format text k (w :: items) ++ closeBracket :: rest))) (by simp; decide) hd
    (by omega)
  have hl' : skipWhitespace l = printValue format text k v ++ comma :: (white format [space] ++
      (printItems format text k (w :: items) ++ closeBracket :: rest)) := hl
  rw [← hl'] at hv
  have hskip : ∀ rest, skipWhitespace (comma :: rest) = comma :: rest :=
    skipWhitespace_cons (by decide)
  have hspace : ∀ c ∈ white format [space], c.toNat ≤ 32 := white_le (by simp [space])
  have hnext : skipWhitespace (white format [space] ++
      (printItems format text k (w :: items) ++ closeBracket :: rest)) =
        printItems format text k (w :: items) ++ closeBracket :: rest := by
    rw [printItems_cons]
    exact skipWhitespace_printValue h hspace k w _
  have hitems := hrest k d n _ rest hd (by simp at hlen; omega) hnext
  by_cases hdeep : d + v.nesting ≤ nestingLimit
  · rw [if_pos hdeep] at hv
    rw [parseItems_comma hv (hskip _), hitems]
    have hmax : d + max v.nesting (itemsNesting (w :: items)) ≤ nestingLimit ↔
        d + itemsNesting (w :: items) ≤ nestingLimit := by omega
    simp only [hmax]
    split <;> rfl
  · rw [if_neg hdeep] at hv
    rw [parseItems_none hv, if_neg (by omega)]

section Members

variable {key : CString} {v : Value ν} {members : List (CString × Value ν)}

theorem length_printValue_lt_printMembers (k : Nat) :
    (printValue format text k v).length + (printMembers format text k members).length + 1 ≤
      (printMembers format text k ((key, v) :: members)).length := by
  simp [printMembers]
  omega

theorem membersReadBack_singleton (h : text.Readable reread)
    (hread : v.ReadBack text reread format) : MembersReadBack text reread format [(key, v)] := by
  intro k d n w l rest hd hw hn hl
  obtain ⟨n, rfl⟩ : ∃ m, n = m + 1 := ⟨n - 1, by omega⟩
  have hnil : ∀ c ∈ ([] : List UInt8), c.toNat ≤ 32 := by simp
  have hkey := hl.trans (skipWhitespace_printMembers format text k key v [] hnil
    (w ++ closeBrace :: rest))
  have htab : ∀ c ∈ white format [tab], c.toNat ≤ 32 := white_le (by simp [tab])
  have hlen : (printValue format text k v).length + (printMembers format text k []).length + 1 ≤
      (printMembers format text k [(key, v)]).length := length_printValue_lt_printMembers k
  have hwhite : ∀ c ∈ white format [newline] ++ w, c.toNat ≤ 32 := by
    intro c hc
    rcases List.mem_append.mp hc with hc | hc
    · exact newline_le format c hc
    · exact hw c hc
  have hv := hread k d n (white format [newline] ++ w ++ closeBrace :: rest)
    (not_number_closeBrace hwhite rest) hd (by omega)
  have hskip := skipWhitespace_append hwhite (show 32 < closeBrace.toNat by decide) rest
  rw [← skipWhitespace_printValue h htab k v] at hv
  have hkey' : skipWhitespace l = printStringPtr key ++ colon :: (white format [tab] ++
      (printValue format text k v ++ (white format [newline] ++ w ++ closeBrace :: rest))) := by
    rw [hkey]
    simp [printMembers]
  have hmax : max v.nesting (membersNesting ([] : List (CString × Value ν))) = v.nesting :=
    Nat.max_eq_left (Nat.zero_le _)
  rw [membersNesting, rereadMembers, hmax]
  by_cases hdeep : d + v.nesting ≤ nestingLimit
  · rw [if_pos hdeep] at hv ⊢
    exact parseMembers_last hkey' hv hskip
  · rw [if_neg hdeep] at hv ⊢
    exact parseMembers_none hkey' hv

theorem membersReadBack_cons (h : text.Readable reread) (hne : members ≠ [])
    (hread : v.ReadBack text reread format) (hrest : MembersReadBack text reread format members) :
    MembersReadBack text reread format ((key, v) :: members) := by
  intro k d n w l rest hd hw hn hl
  obtain ⟨n, rfl⟩ : ∃ m, n = m + 1 := ⟨n - 1, by omega⟩
  have hnil : ∀ c ∈ ([] : List UInt8), c.toNat ≤ 32 := by simp
  have hkey := hl.trans (skipWhitespace_printMembers format text k key v members hnil
    (w ++ closeBrace :: rest))
  have htab : ∀ c ∈ white format [tab], c.toNat ≤ 32 := white_le (by simp [tab])
  have hlen : (printValue format text k v).length + (printMembers format text k members).length + 1 ≤
      (printMembers format text k ((key, v) :: members)).length :=
    length_printValue_lt_printMembers k
  obtain ⟨m, members, rfl⟩ := List.exists_cons_of_ne_nil hne
  rw [membersNesting, rereadMembers]
  have hv := hread k d n (comma :: (white format [newline] ++
    (printMembers format text k (m :: members) ++ (w ++ closeBrace :: rest))))
    (by simp; decide) hd (by omega)
  rw [← skipWhitespace_printValue h htab k v] at hv
  have hskip : ∀ rest, skipWhitespace (comma :: rest) = comma :: rest :=
    skipWhitespace_cons (by decide)
  have hmembers := hrest k d n w _ rest hd hw (by omega)
    (skipWhitespace_white_printMembers k hne (newline_le format) _)
  by_cases hdeep : d + v.nesting ≤ nestingLimit
  · rw [if_pos hdeep] at hv
    rw [parseMembers_comma hkey hv (hskip _), hmembers]
    have hmax : d + max v.nesting (membersNesting (m :: members)) ≤ nestingLimit ↔
        d + membersNesting (m :: members) ≤ nestingLimit := by omega
    simp only [hmax]
    split <;> rfl
  · rw [if_neg hdeep] at hv
    rw [parseMembers_none hkey hv, if_neg (by omega)]

end Members

mutual

theorem parseValue_printValue (h : text.Readable reread) :
    ∀ v : Value ν, v.ReadBack text reread format
  | .null => readBack_null
  | .bool b => readBack_bool b
  | .number x => readBack_number h x
  | .string s => readBack_string s
  | .array [] => readBack_array_nil
  | .array (v :: items) =>
    readBack_array h (List.cons_ne_nil v items)
      (parseItems_printItems h (v :: items) (List.cons_ne_nil v items))
  | .object [] => readBack_object_nil
  | .object (m :: members) =>
    readBack_object (List.cons_ne_nil m members)
      (parseMembers_printMembers h (m :: members) (List.cons_ne_nil m members))

theorem parseItems_printItems (h : text.Readable reread) :
    ∀ items : List (Value ν), items ≠ [] → ItemsReadBack text reread format items
  | [], hne => absurd rfl hne
  | [v], _ => itemsReadBack_singleton (parseValue_printValue h v)
  | v :: w :: items, _ =>
    itemsReadBack_cons h (List.cons_ne_nil w items) (parseValue_printValue h v)
      (parseItems_printItems h (w :: items) (List.cons_ne_nil w items))

theorem parseMembers_printMembers (h : text.Readable reread) :
    ∀ members : List (CString × Value ν), members ≠ [] →
      MembersReadBack text reread format members
  | [], hne => absurd rfl hne
  | [(_, v)], _ => membersReadBack_singleton h (parseValue_printValue h v)
  | (_, v) :: m :: members, _ =>
    membersReadBack_cons h (List.cons_ne_nil m members) (parseValue_printValue h v)
      (parseMembers_printMembers h (m :: members) (List.cons_ne_nil m members))

end

end RoundTrip

end Json

end SatComm
