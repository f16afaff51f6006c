import SatComm.FileBuffer.Threads

/-!
# The rows in the batches

The buffering thread reads one line ahead of the line that it keeps, and at the end of the file it
drops the line that it has kept last. This is the last row of the file, except if the end comes
where a batch is full. There the line that was read ahead is not kept any more, or, if it is blank
and not the last one, a batch begins in which no row comes.
-/

namespace SatComm

namespace FileBuffer

open Runs

/-- The lines that are skipped before the first row. -/
def skipped (line : String) : Prop := line = "" ∨ "##".toList.isPrefixOf line.toList

instance : DecidablePred skipped := fun _ => inferInstanceAs (Decidable (_ ∨ _))

/-- The rows of a file: its lines after the header, without the empty ones. -/
def rows (file : List String) : List String :=
  (file.dropWhile (fun line => skipped line)).filter (fun line => line ≠ "")

theorem filter_cons_kept (line : String) (rest : List String) :
    (line :: rest).filter (fun line => line ≠ "") =
      kept line ++ rest.filter (fun line => line ≠ "") := by
  unfold kept
  by_cases h : line = "" <;> simp [h]

theorem length_kept_le (line : String) : (kept line).length ≤ 1 := by
  unfold kept
  split <;> simp

theorem kept_eq_nil_iff (line : String) : kept line = [] ↔ line = "" := by
  unfold kept
  split <;> simp_all

theorem kept_of_ne {line : String} (h : line ≠ "") : kept line = [line] := if_neg h

/-- The search for the first row ends there, or at the last line of a file without rows. -/
theorem skipCopyright_cases (line : String) (file : List String) :
    (∃ front first rest, file = front ++ first :: rest ∧ (∀ l ∈ front, skipped l) ∧
      ¬ skipped first ∧ skipCopyright line file = (first, rest)) ∨
    (∀ l ∈ file, skipped l) ∧ skipCopyright line file = (file.getLast?.getD line, []) := by
  induction file generalizing line with
  | nil => exact .inr ⟨nofun, rfl⟩
  | cons next file ih =>
    by_cases hnext : skipped next
    · have hskip : skipCopyright line (next :: file) = skipCopyright next file := by
        rw [skipCopyright, if_neg]
        unfold skipped at hnext
        tauto
      rcases ih next with ⟨front, first, rest, rfl, hfront, hfirst, hread⟩ | ⟨hall, hread⟩
      · exact .inl ⟨next :: front, first, rest, rfl, List.forall_mem_cons.2 ⟨hnext, hfront⟩,
          hfirst, hskip.trans hread⟩
      · refine .inr ⟨List.forall_mem_cons.2 ⟨hnext, hall⟩, hskip.trans ?_⟩
        rw [hread, List.getLast?_cons]
        rfl
    · refine .inl ⟨[], next, file, rfl, nofun, hnext, ?_⟩
      rw [skipCopyright, if_pos]
      unfold skipped at hnext
      tauto

theorem rows_of_front {front rest : List String} {first : String}
    (hfront : ∀ l ∈ front, skipped l) (hfirst : ¬ skipped first) :
    rows (front ++ first :: rest) = (first :: rest).filter (fun line => line ≠ "") := by
  unfold rows
  rw [List.dropWhile_append_of_pos (by simpa using hfront), List.dropWhile_cons_of_neg (by simpa)]

theorem rows_of_skipped {file : List String} (hall : ∀ l ∈ file, skipped l) : rows file = [] := by
  unfold rows
  rw [List.dropWhile_eq_nil_iff.2 (by simpa using hall)]
  rfl

/-! ## Filling the batches -/

/-- The batches that are announced before the last one, and the lines kept when the end of the file
is reached, from the lines collected so far on. -/
def readFrom (threshold : Int) :
    List String → Nat → String → List String → List (List String) × List String
  | collected, _, line, [] => ([], collected ++ kept line)
  | collected, lineCount, line, next :: rest =>
    if ((lineCount + (kept line).length : Nat) : Int) < threshold then
      readFrom threshold (collected ++ kept line) (lineCount + (kept line).length) next rest
    else if rest = [] then ([], collected ++ kept line)
    else ((collected ++ kept line) :: (readFrom threshold [] 0 next rest).1,
      (readFrom threshold [] 0 next rest).2)

def readAll (threshold : Int) (file : List String) : List (List String) × List String :=
  readFrom threshold [] 0 (skipCopyright "" file).1 (skipCopyright "" file).2

variable {threshold : Int}

/-- A batch is full at the threshold. -/
theorem readFrom_length_le (hthreshold : 1 ≤ threshold) {collected : List String} {line : String}
    {rest : List String} (hcollected : (collected.length : Int) < threshold) :
    (∀ batch ∈ (readFrom threshold collected collected.length line rest).1,
      (batch.length : Int) ≤ threshold) ∧
    ((readFrom threshold collected collected.length line rest).2.length : Int) ≤ threshold := by
  have hkept : ((collected ++ kept line).length : Int) ≤ threshold := by
    have := length_kept_le line
    rw [List.length_append]
    omega
  induction rest generalizing collected line with
  | nil => exact ⟨nofun, hkept⟩
  | cons next rest ih =>
    rw [readFrom]
    split_ifs with hcount hrest
    · rw [← List.length_append] at hcount ⊢
      have := length_kept_le next
      exact ih hcount (by rw [List.length_append]; omega)
    · exact ⟨nofun, hkept⟩
    · have hnext := @ih [] next (by simp; omega)
        (by have := length_kept_le next; simp; omega)
      refine ⟨?_, hnext.2⟩
      intro batch hbatch
      rcases List.mem_cons.1 hbatch with rfl | hbatch
      · exact hkept
      · exact hnext.1 batch hbatch

/-- The lines kept are the rows, but for a last one that comes after a full batch. -/
theorem readFrom_rows (hthreshold : 1 ≤ threshold) {collected : List String} {line : String}
    {rest : List String} :
    let read := readFrom threshold collected collected.length line rest
    let all := collected ++ (line :: rest).filter (fun line => line ≠ "")
    read.1.flatten ++ read.2 = all ∨
      ∃ last, read.2 ≠ [] ∧ (read.1.flatten ++ read.2) ++ [last] = all := by
  induction rest generalizing collected line with
  | nil =>
    left
    rw [filter_cons_kept]
    simp [readFrom]
  | cons next rest ih =>
    rw [readFrom]
    simp only
    split_ifs with hcount hrest
    · rw [← List.length_append, filter_cons_kept, ← List.append_assoc]
      exact ih
    · subst hrest
      have hne : collected ++ kept line ≠ [] := by
        intro hnil
        rw [← List.length_append, hnil] at hcount
        simp at hcount
        omega
      rw [filter_cons_kept, filter_cons_kept]
      by_cases hnext : next = ""
      · left
        simp [(kept_eq_nil_iff next).2 hnext]
      · right
        exact ⟨next, hne, by simp [kept_of_ne hnext]⟩
    · rw [filter_cons_kept]
      rcases @ih [] next with hall | ⟨last, hne, hall⟩
      · left
        simp only [List.length_nil] at hall
        rw [List.flatten_cons, List.append_assoc, hall]
        simp
      · right
        simp only [List.length_nil] at hall hne
        refine ⟨last, hne, ?_⟩
        simp only [List.flatten_cons, List.append_assoc] at hall ⊢
        rw [hall]
        simp

/-! ## When the last row is the only one lost -/

/-- `n` rows in these lines, the batches from their beginning on: something is kept when the end of
the file is reached, and the last line is not read ahead of a full batch unless it is blank. -/
structure Fits (threshold : Int) (n : Nat) (lines : List String) : Prop where
  kept : lines.getLast? = some "" → n ≠ 0
  blank : lines.getLast? = some "" → lines.dropLast.getLast? = some "" → ¬ threshold ∣ n
  row : lines.getLast? ≠ some "" → lines.dropLast.getLast? ≠ some "" → 2 ≤ n →
    ¬ threshold ∣ (n : Int) - 1

theorem fits_append {n : Nat} {lines : List String} {before last : String} :
    Fits threshold n (lines ++ [before, last]) ↔
      (last = "" → n ≠ 0) ∧ (last = "" → before = "" → ¬ threshold ∣ n) ∧
        (last ≠ "" → before ≠ "" → 2 ≤ n → ¬ threshold ∣ (n : Int) - 1) := by
  have hsplit : lines ++ [before, last] = (lines ++ [before]) ++ [last] := by simp
  have hlast : (lines ++ [before, last]).getLast? = some last := by simp
  have hbefore : (lines ++ [before, last]).dropLast.getLast? = some before := by
    rw [hsplit, List.dropLast_concat, List.getLast?_concat]
  constructor
  · rintro ⟨hkept, hblank, hrow⟩
    rw [hlast, hbefore] at *
    simp only [ne_eq, Option.some.injEq] at *
    exact ⟨hkept, hblank, hrow⟩
  · rintro ⟨hkept, hblank, hrow⟩
    constructor <;> rw [hlast] <;> try rw [hbefore]
    all_goals simpa using by assumption

theorem exists_last_two {next : String} {rest : List String} (h : rest ≠ []) :
    ∃ lines before last, next :: rest = lines ++ [before, last] := by
  have hrest := List.dropLast_append_getLast h
  have hfront := List.dropLast_append_getLast (List.cons_ne_nil next rest.dropLast)
  refine ⟨(next :: rest.dropLast).dropLast,
    (next :: rest.dropLast).getLast (List.cons_ne_nil next rest.dropLast), rest.getLast h, ?_⟩
  calc next :: rest = (next :: rest.dropLast) ++ [rest.getLast h] := by
        rw [List.cons_append, hrest]
    _ = ((next :: rest.dropLast).dropLast ++ [(next :: rest.dropLast).getLast
          (List.cons_ne_nil next rest.dropLast)]) ++ [rest.getLast h] := by rw [hfront]
    _ = _ := by simp only [List.append_assoc, List.cons_append, List.nil_append]

theorem not_dvd_of_lt {k : Nat} (hpos : k ≠ 0) (hlt : (k : Int) < threshold) :
    ¬ threshold ∣ (k : Int) := by
  intro hdvd
  have := Int.le_of_dvd (by omega) hdvd
  omega

/-- A line before two others is not looked at. -/
theorem fits_cons {n : Nat} {line next : String} {rest : List String} (h : rest ≠ []) :
    Fits threshold n (line :: next :: rest) ↔ Fits threshold n (next :: rest) := by
  obtain ⟨lines, before, last, hlines⟩ := @exists_last_two next rest h
  rw [hlines, ← List.cons_append, fits_append, fits_append]

/-- A full batch before the lines is not looked at. -/
theorem fits_add_batch {k : Nat} {next : String} {rest : List String} (hk : (k : Int) = threshold)
    (hpos : k ≠ 0) (h : rest ≠ []) :
    Fits threshold (k + ((next :: rest).filter (fun line => line ≠ "")).length) (next :: rest) ↔
      Fits threshold ((next :: rest).filter (fun line => line ≠ "")).length (next :: rest) := by
  obtain ⟨lines, before, last, hlines⟩ := @exists_last_two next rest h
  rw [hlines, fits_append, fits_append]
  have hlength : ((lines ++ [before, last]).filter (fun line => line ≠ "")).length =
      (lines.filter (fun line => line ≠ "")).length + (kept before).length +
        (kept last).length := by
    rw [List.filter_append, filter_cons_kept, filter_cons_kept]
    simp
    omega
  generalize ((lines ++ [before, last]).filter (fun line => line ≠ "")).length = n at hlength ⊢
  have hn : threshold ∣ ((k + n : Nat) : Int) ↔ threshold ∣ (n : Int) := by
    push_cast
    rw [hk, Int.dvd_add_right (dvd_refl _)]
  have hn' : threshold ∣ ((k + n : Nat) : Int) - 1 ↔ threshold ∣ (n : Int) - 1 := by
    push_cast
    rw [hk, add_sub_assoc, Int.dvd_add_right (dvd_refl _)]
  rw [hn, hn']
  by_cases hlast : last = "" <;> by_cases hbefore : before = ""
  · have hzero : n = 0 → threshold ∣ (n : Int) := by
      rintro rfl
      exact dvd_zero threshold
    simp only [hlast, hbefore, forall_true_left, ne_eq, not_true_eq_false, false_imp_iff, and_true]
    constructor
    · rintro ⟨-, hnot⟩
      exact ⟨fun h => hnot (hzero h), hnot⟩
    · rintro ⟨-, hnot⟩
      exact ⟨by omega, hnot⟩
  · rw [kept_of_ne hbefore, List.length_singleton] at hlength
    have hne : n ≠ 0 := by omega
    simp [hlast, hbefore, hne]
  · simp [hlast, hbefore]
  · rw [kept_of_ne hbefore, kept_of_ne hlast] at hlength
    have htwo : 2 ≤ n := by
      simp only [List.length_singleton] at hlength
      omega
    have htwo' : 2 ≤ k + n := by omega
    simp [hlast, hbefore, htwo, htwo']

/-- Two lines at the end, with room in the batch. -/
theorem fits_pair {collected : List String} {line next : String}
    (hcollected : (collected.length : Int) < threshold) :
    Fits threshold (collected ++ [next].filter (fun line => line ≠ "")).length [next] ↔
      Fits threshold (collected ++ [next].filter (fun line => line ≠ "")).length [line, next] := by
  have hpair : [line, next] = [] ++ [line, next] := rfl
  rw [hpair, fits_append]
  by_cases hnext : next = ""
  · have hlength : (collected ++ [next].filter (fun line => line ≠ "")).length =
        collected.length := by simp [hnext]
    rw [hlength]
    constructor
    · rintro ⟨hkept, -, -⟩
      have hne := hkept (by simp [hnext])
      exact ⟨fun _ => hne, fun _ _ => not_dvd_of_lt hne hcollected, fun h => absurd hnext h⟩
    · rintro ⟨hkept, -, -⟩
      exact ⟨fun _ => hkept hnext, by simp, by simp [hnext]⟩
  · have hlength : (collected ++ [next].filter (fun line => line ≠ "")).length =
        collected.length + 1 := by simp [hnext]
    rw [hlength]
    have hrow : 2 ≤ collected.length + 1 →
        ¬ threshold ∣ ((collected.length + 1 : Nat) : Int) - 1 := by
      intro htwo
      have hcast : ((collected.length + 1 : Nat) : Int) - 1 = (collected.length : Nat) := by simp
      rw [hcast]
      exact not_dvd_of_lt (by omega) hcollected
    exact iff_of_true ⟨by simp, by simp, fun _ _ => hrow⟩
      ⟨fun h => absurd h hnext, fun h => absurd h hnext, fun _ _ => hrow⟩

/-- A batch gets full by one row. -/
theorem full_batch {collected : List String} {line : String}
    (hcollected : (collected.length : Int) < threshold)
    (hcount : ¬ ((collected.length + (kept line).length : Nat) : Int) < threshold) :
    line ≠ "" ∧ (collected.length : Int) + 1 = threshold := by
  have hkept := length_kept_le line
  refine ⟨?_, by omega⟩
  rintro rfl
  simp [kept] at hcount
  omega

theorem fits_full (hthreshold : 1 ≤ threshold) {collected : List String} {line next : String}
    (hline : line ≠ "") (hfull : (collected.length : Int) + 1 = threshold) :
    (collected ++ kept line ≠ [] ∧ ([] : List (List String)).flatten ++ (collected ++ kept line) =
        collected ++ [line, next].filter (fun line => line ≠ "")) ↔
      Fits threshold (collected ++ [line, next].filter (fun line => line ≠ "")).length
        [line, next] := by
  have hpair : [line, next] = [] ++ [line, next] := rfl
  rw [hpair, fits_append, List.nil_append]
  by_cases hnext : next = ""
  · simp [hnext, hline, kept_of_ne hline]
  · have hlength : (collected ++ [line, next].filter (fun line => line ≠ "")).length =
        collected.length + 2 := by simp [hnext, hline]
    rw [hlength]
    refine iff_of_false ?_ ?_
    · simp [hnext, hline, kept_of_ne hline]
    · rintro ⟨-, -, hrow⟩
      apply hrow hnext hline (by omega)
      have hcast : ((collected.length + 2 : Nat) : Int) - 1 = threshold := by
        push_cast
        omega
      rw [hcast]

/-- All rows are kept and one of them is there to be dropped. -/
theorem readFrom_exact_iff (hthreshold : 1 ≤ threshold) {collected : List String} {line : String}
    {rest : List String} (hcollected : (collected.length : Int) < threshold) :
    let read := readFrom threshold collected collected.length line rest
    let all := collected ++ (line :: rest).filter (fun line => line ≠ "")
    (read.2 ≠ [] ∧ read.1.flatten ++ read.2 = all) ↔ Fits threshold all.length (line :: rest) := by
  induction rest generalizing collected line with
  | nil =>
    simp only [readFrom, List.flatten_nil, List.nil_append, filter_cons_kept, List.filter_nil,
      List.append_nil, and_true]
    constructor
    · intro hne
      refine ⟨fun _ => ?_, by simp, fun hlast _ htwo => ?_⟩
      · simpa using hne
      · have hline : line ≠ "" := by simpa using hlast
        rw [kept_of_ne hline] at htwo ⊢
        have hcast : ((collected ++ [line]).length : Int) - 1 = (collected.length : Nat) := by
          simp
        rw [hcast]
        exact not_dvd_of_lt (by simp at htwo; omega) hcollected
    · intro hfits hnil
      have hline : line = "" := by
        rw [← kept_eq_nil_iff]
        exact (List.append_eq_nil_iff.1 hnil).2
      exact hfits.kept (by simp [hline]) (by rw [hnil]; rfl)
  | cons next rest ih =>
    rw [readFrom]
    simp only
    split_ifs with hcount hrest
    · rw [← List.length_append] at hcount ⊢
      have hread := @ih _ next hcount
      simp only at hread
      rw [filter_cons_kept, ← List.append_assoc, hread]
      by_cases hrest : rest = []
      · subst hrest
        exact fits_pair hcount
      · exact (fits_cons hrest).symm
    · subst hrest
      obtain ⟨hline, hfull⟩ := full_batch hcollected hcount
      exact fits_full hthreshold hline hfull
    · obtain ⟨hline, hfull⟩ := full_batch hcollected hcount
      have hread := @ih [] next (by simp; omega)
      simp only [List.length_nil, List.nil_append] at hread
      have hlength : (collected ++ (line :: next :: rest).filter (fun line => line ≠ "")).length =
          collected.length + 1 + ((next :: rest).filter (fun line => line ≠ "")).length := by
        rw [filter_cons_kept, kept_of_ne hline]
        simp
        omega
      rw [fits_cons hrest, hlength, fits_add_batch (by omega) (by omega) hrest, ← hread,
        filter_cons_kept line, List.flatten_cons, List.append_assoc, List.append_assoc,
        List.append_cancel_left_eq, List.append_cancel_left_eq]

/-- There is something to drop, and only the last row is missing in the batches. -/
def Exact (threshold : Int) (file : List String) : Prop :=
  (readAll threshold file).2 ≠ [] ∧
    (readAll threshold file).1.flatten ++ (readAll threshold file).2.dropLast =
      (rows file).dropLast

/-- The end of the file does not come where a batch is full: with a row that was read ahead of it,
or with blank lines of which one is read ahead. And there is a line to drop. -/
structure Ends (threshold : Int) (file : List String) : Prop where
  line : file ≠ []
  kept : file.getLast? = some "" → rows file ≠ []
  blank : file.getLast? = some "" → file.dropLast.getLast? = some "" →
    ¬ threshold ∣ (rows file).length
  row : file.getLast? ≠ some "" → file.dropLast.getLast? ≠ some "" → 2 ≤ (rows file).length →
    ¬ threshold ∣ ((rows file).length : Int) - 1

/-- Without the last one of them the rows are those kept without the last one. -/
theorem dropLast_rows_iff {full : List (List String)} {last rows : List String}
    (h : full.flatten ++ last = rows ∨
      ∃ row, last ≠ [] ∧ (full.flatten ++ last) ++ [row] = rows) :
    (last ≠ [] ∧ full.flatten ++ last.dropLast = rows.dropLast) ↔
      last ≠ [] ∧ full.flatten ++ last = rows := by
  refine and_congr_right (fun hne => ?_)
  constructor
  · intro hdrop
    rcases h with h | ⟨row, -, h⟩
    · exact h
    · have hlength := congrArg List.length hdrop
      have hpos := List.length_pos_of_ne_nil hne
      rw [← h, List.dropLast_concat] at hlength
      simp only [List.length_append, List.length_dropLast] at hlength
      omega
  · rintro rfl
    rw [List.dropLast_append_of_ne_nil hne]

theorem ends_iff_fits {file : List String} (hne : file ≠ []) :
    Ends threshold file ↔ Fits threshold (rows file).length file := by
  constructor
  · rintro ⟨-, hkept, hblank, hrow⟩
    exact ⟨fun h => by simpa using hkept h, hblank, hrow⟩
  · rintro ⟨hkept, hblank, hrow⟩
    exact ⟨hne, fun h => by simpa using hkept h, hblank, hrow⟩

theorem exact_iff_ends (hthreshold : 1 ≤ threshold) (file : List String) :
    Exact threshold file ↔ Ends threshold file := by
  unfold Exact readAll
  rcases skipCopyright_cases "" file with ⟨front, first, rest, rfl, hfront, hfirst, hread⟩ |
      ⟨hall, hread⟩
  · have hrows := @rows_of_front front rest first hfront hfirst
    have haccount := @readFrom_rows threshold hthreshold [] first rest
    have hexact := @readFrom_exact_iff threshold hthreshold [] first rest
      (by simp; omega)
    simp only [List.length_nil, List.nil_append] at haccount hexact
    have hne : front ++ first :: rest ≠ [] := by simp
    rw [hread, hrows, dropLast_rows_iff haccount, hexact, ends_iff_fits hne, ← hrows]
    by_cases hrest : rest = []
    · subst hrest
      have hline : first ≠ "" := fun h => hfirst (.inl h)
      have hone : (rows (front ++ [first])).length = 1 := by
        rw [hrows, filter_cons_kept, kept_of_ne hline]
        rfl
      rw [hone]
      refine iff_of_true ⟨?_, ?_, fun _ _ h => absurd h (by decide)⟩
        ⟨?_, ?_, fun _ _ h => absurd h (by decide)⟩ <;> simp [hline]
    · obtain ⟨lines, before, last, hlines⟩ := @exists_last_two first rest hrest
      rw [hlines, ← List.append_assoc, fits_append, fits_append]
  · have hrows := rows_of_skipped hall
    rw [hread, hrows]
    simp only [readFrom, List.flatten_nil, List.nil_append, List.dropLast_nil, ne_eq,
      kept_eq_nil_iff]
    have hdrop : ∀ line : String, (kept line).dropLast = [] := by
      intro line
      unfold kept
      split <;> rfl
    constructor
    · rintro ⟨hlast, -⟩
      refine ⟨?_, ?_, ?_, ?_⟩
      · rintro rfl
        exact hlast rfl
      · intro hblank
        simp [hblank] at hlast
      · intro hblank
        simp [hblank] at hlast
      · intro _ _ htwo
        simp [hrows] at htwo
    · intro hends
      refine ⟨?_, hdrop _⟩
      cases hlast : file.getLast? with
      | none => exact absurd (List.getLast?_eq_none_iff.1 hlast) hends.line
      | some last =>
        rintro rfl
        exact hends.kept hlast hrows

end FileBuffer

end SatComm
