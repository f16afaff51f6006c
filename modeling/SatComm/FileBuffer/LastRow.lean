import SatComm.FileBuffer.HandOver
import SatComm.FileBuffer.Rows

/-!
# The batches of a run

The streaming thread takes a batch only after it is complete: while the buffering thread waits for
it, or after the last one. What such a run has taken and what is left in the buffer are then the
batches of `readAll`, in every state, and every file has a run to the end.
-/

namespace SatComm

namespace FileBuffer

open Runs

variable {threshold : Int} {file : List String} {s s' : State}

/-- A batch is taken only after it is complete. -/
def TakesComplete (s : State) : Step → Prop
  | .take => (s.buffering matches .waiting _) ∧ s.readNextBatch = false ∨
    s.buffering = .announcingLast ∨ s.buffering = .finished
  | .buffer | .check | .send => True

instance (s : State) : DecidablePred (TakesComplete s)
  | .take => inferInstanceAs (Decidable (_ ∧ _ ∨ _ ∨ _))
  | .buffer | .check | .send => inferInstanceAs (Decidable True)

/-- What was taken, and after the last batch what is left to take. -/
def State.produced (s : State) : List (List String) :=
  if s.buffering = .finished then s.taken ++ [s.readBuffer] else s.taken

/-- How `readAll` comes out of what was taken and what is still to be read. -/
inductive Reading (threshold : Int) (file : List String) : State → Prop
  | filling {s : State} (line : String) : s.buffering = .filling line s.readBuffer.length →
    readAll threshold file =
      (s.taken ++ (readFrom threshold s.readBuffer s.readBuffer.length line s.rest).1,
        (readFrom threshold s.readBuffer s.readBuffer.length line s.rest).2) →
    Reading threshold file s
  | announcing {s : State} (line : String) : s.buffering = .announcing line →
    readAll threshold file = (s.taken ++ s.readBuffer :: (readFrom threshold [] 0 line s.rest).1,
      (readFrom threshold [] 0 line s.rest).2) → Reading threshold file s
  | announced {s : State} (line : String) :
    s.buffering = .clearing line ∨ s.buffering = .waiting line ∧ s.readNextBatch = false →
    readAll threshold file = (s.taken ++ s.readBuffer :: (readFrom threshold [] 0 line s.rest).1,
      (readFrom threshold [] 0 line s.rest).2) → Reading threshold file s
  | swapped {s : State} (line : String) :
    s.buffering = .waiting line → s.readNextBatch = true → s.readBuffer = [] →
    readAll threshold file = (s.taken ++ (readFrom threshold [] 0 line s.rest).1,
      (readFrom threshold [] 0 line s.rest).2) → Reading threshold file s
  | popping {s : State} : s.buffering = .poppingLast →
    readAll threshold file = (s.taken, s.readBuffer) → Reading threshold file s
  | undefined {s : State} : s.buffering = .undefined → (readAll threshold file).2 = [] →
    Reading threshold file s
  | last {s : State} : s.buffering = .announcingLast ∨ s.buffering = .finished →
    (readAll threshold file).2 ≠ [] → (readAll threshold file).1 = s.taken →
    (readAll threshold file).2.dropLast = s.readBuffer → Reading threshold file s
  | ended {s : State} (k : Nat) : s.buffering = .announcingLast ∨ s.buffering = .finished →
    (readAll threshold file).2 ≠ [] → s.readBuffer = [] →
    s.taken = (readAll threshold file).1 ++ [(readAll threshold file).2.dropLast] ++
      List.replicate k [] → Reading threshold file s

/-- The invariant. -/
structure Reads (threshold : Int) (file : List String) (s : State) : Prop where
  reading : Reading threshold file s
  ready : s.ready → s.requestBuffer = []

theorem reads_start (threshold : Int) (file : List String) :
    Reads threshold file (start file) :=
  ⟨.filling _ rfl rfl, nofun⟩

theorem reading_fill {line : String} {lineCount : Nat} (hcount : lineCount = s.readBuffer.length)
    (hread : readAll threshold file =
      (s.taken ++ (readFrom threshold s.readBuffer s.readBuffer.length line s.rest).1,
        (readFrom threshold s.readBuffer s.readBuffer.length line s.rest).2)) :
    Reading threshold file (s.fill threshold line lineCount) := by
  subst hcount
  cases hrest : s.rest with
  | nil =>
    rw [hrest, readFrom] at hread
    simp only [State.fill, hrest]
    exact .popping rfl (by simpa using hread)
  | cons next rest =>
    rw [hrest, readFrom] at hread
    simp only [State.fill, hrest]
    split_ifs at hread ⊢
    · rw [← List.length_append] at hread ⊢
      exact .filling next rfl hread
    · exact .popping rfl (by simpa using hread)
    · exact .announcing next rfl hread

theorem Reading.buffer (h : Reading threshold file s) (hstep : s.buffer threshold = some s') :
    Reading threshold file s' := by
  cases h with
  | filling line hpc hread =>
    simp only [State.buffer, hpc, Option.some.injEq] at hstep
    exact hstep ▸ reading_fill rfl hread
  | announcing line hpc hread =>
    simp only [State.buffer, hpc, Option.some.injEq] at hstep
    subst hstep
    exact .announced line (.inl rfl) hread
  | announced line hpc hread =>
    rcases hpc with hpc | ⟨hpc, hnext⟩
    · simp only [State.buffer, hpc, Option.some.injEq] at hstep
      subst hstep
      exact .announced line (.inr ⟨rfl, rfl⟩) hread
    · -- the wait is not over
      simp [State.buffer, hpc, hnext] at hstep
  | swapped line hpc hnext hempty hread =>
    simp only [State.buffer, hpc, hnext, if_true, Option.some.injEq] at hstep
    subst hstep
    refine .filling line ?_ ?_ <;> simp only [hempty]
    · rfl
    · exact hread
  | popping hpc hread =>
    simp only [State.buffer, hpc] at hstep
    split_ifs at hstep with hempty
    · obtain rfl := Option.some.inj hstep
      exact .undefined rfl (by rw [hread]; exact hempty)
    · obtain rfl := Option.some.inj hstep
      exact .last (.inl rfl) (by rw [hread]; exact hempty) (by rw [hread]) (by rw [hread])
  | undefined hpc => simp [State.buffer, hpc] at hstep
  | last hpc hne htaken hread =>
    rcases hpc with hpc | hpc
    · simp only [State.buffer, hpc, Option.some.injEq] at hstep
      subst hstep
      exact .last (.inr rfl) hne htaken hread
    · simp [State.buffer, hpc] at hstep
  | ended k hpc hne hempty htaken =>
    rcases hpc with hpc | hpc
    · simp only [State.buffer, hpc, Option.some.injEq] at hstep
      subst hstep
      exact .ended k (.inr rfl) hne hempty htaken
    · simp [State.buffer, hpc] at hstep

theorem Reads.take (h : Reads threshold file s) (hcomplete : TakesComplete s .take)
    (hstep : s.take = some s') : Reads threshold file s' := by
  rw [State.take] at hstep
  split_ifs at hstep with hready
  obtain rfl := Option.some.inj hstep
  have hrequest := h.ready hready
  refine ⟨?_, fun hagain => absurd hagain Bool.false_ne_true⟩
  cases h.reading with
  | filling line hpc => simp [TakesComplete, hpc] at hcomplete
  | announcing line hpc => simp [TakesComplete, hpc] at hcomplete
  | announced line hpc hread =>
    rcases hpc with hpc | ⟨hpc, -⟩
    · simp [TakesComplete, hpc] at hcomplete
    · exact .swapped line hpc rfl hrequest (by simpa using hread)
  | swapped line hpc hnext => simp [TakesComplete, hpc, hnext] at hcomplete
  | popping hpc => simp [TakesComplete, hpc] at hcomplete
  | undefined hpc => simp [TakesComplete, hpc] at hcomplete
  | last hpc hne htaken hread =>
    refine .ended 0 hpc hne hrequest ?_
    rw [htaken, hread]
    simp
  | ended k hpc hne hempty htaken =>
    refine .ended (k + 1) hpc hne hrequest ?_
    rw [htaken, hempty, List.replicate_succ', List.append_assoc _ (List.replicate k [])]

theorem Reading.congr (h : Reading threshold file s) (hbuffering : s'.buffering = s.buffering)
    (hrest : s'.rest = s.rest) (hread : s'.readBuffer = s.readBuffer)
    (hnext : s'.readNextBatch = s.readNextBatch) (htaken : s'.taken = s.taken) :
    Reading threshold file s' := by
  cases h with
  | filling line => apply Reading.filling line <;> simp_all
  | announcing line => apply Reading.announcing line <;> simp_all
  | announced line => apply Reading.announced line <;> simp_all
  | swapped line => apply Reading.swapped line <;> simp_all
  | popping => apply Reading.popping <;> simp_all
  | undefined => apply Reading.undefined <;> simp_all
  | last => apply Reading.last <;> simp_all
  | ended k => apply Reading.ended k <;> simp_all

theorem Reads.step (h : Reads threshold file s) {e : Step} (hcomplete : TakesComplete s e)
    (hstep : FileBuffer.step threshold s e = some s') : Reads threshold file s' := by
  cases e with
  | buffer =>
    obtain ⟨-, -, hready, hrequest⟩ := buffer_frame hstep
    refine ⟨h.reading.buffer hstep, ?_⟩
    rw [hready, hrequest]
    exact h.ready
  | check =>
    simp only [FileBuffer.step, State.check] at hstep
    split_ifs at hstep with hwait
    obtain rfl := Option.some.inj hstep
    exact ⟨h.reading.congr rfl rfl rfl rfl rfl, fun _ => hwait.1⟩
  | take => exact h.take hcomplete hstep
  | send =>
    simp only [FileBuffer.step, State.send] at hstep
    split_ifs at hstep with hne
    obtain rfl := Option.some.inj hstep
    exact ⟨h.reading.congr rfl rfl rfl rfl rfl, fun hready => absurd (h.ready hready) hne⟩

theorem reads_of_reachable (h : Reachable (step threshold) TakesComplete (start file) s) :
    Reads threshold file s := by
  apply h.invariant (reads_start threshold file)
  intro s e s' hok hstep hs
  exact hs.step hok hstep

/-! ## What a run has produced -/

theorem readAll_length_le (hthreshold : 1 ≤ threshold) (file : List String) :
    (∀ batch ∈ (readAll threshold file).1, (batch.length : Int) ≤ threshold) ∧
      ((readAll threshold file).2.length : Int) ≤ threshold :=
  @readFrom_length_le threshold hthreshold [] _ _ (by simp; omega)

/-- Every batch is one of those that `readAll` finds, the last one without its last line, or comes
after them and is empty. -/
theorem Reading.mem_produced (h : Reading threshold file s) (hdefined : s.buffering ≠ .undefined)
    {batch : List String} (hbatch : batch ∈ s.produced) :
    batch ∈ (readAll threshold file).1 ∨ batch = (readAll threshold file).2.dropLast ∨
      batch = [] := by
  have htaken : s.buffering ≠ .finished → s.produced = s.taken := fun hpc => if_neg hpc
  cases h with
  | filling line hpc hread =>
    rw [htaken (by simp [hpc])] at hbatch
    rw [hread]
    exact .inl (List.mem_append_left _ hbatch)
  | announcing line hpc hread =>
    rw [htaken (by simp [hpc])] at hbatch
    rw [hread]
    exact .inl (List.mem_append_left _ hbatch)
  | announced line hpc hread =>
    rw [htaken (by rcases hpc with hpc | ⟨hpc, -⟩ <;> simp [hpc])] at hbatch
    rw [hread]
    exact .inl (List.mem_append_left _ hbatch)
  | swapped line hpc hnext hempty hread =>
    rw [htaken (by simp [hpc])] at hbatch
    rw [hread]
    exact .inl (List.mem_append_left _ hbatch)
  | popping hpc hread =>
    rw [htaken (by simp [hpc])] at hbatch
    rw [hread]
    exact .inl hbatch
  | undefined hpc => exact absurd hpc hdefined
  | last hpc hne htaken' hread =>
    rw [htaken', hread]
    unfold State.produced at hbatch
    split_ifs at hbatch
    · simp only [List.mem_append, List.mem_singleton] at hbatch
      tauto
    · exact .inl hbatch
  | ended k hpc hne hempty htaken' =>
    unfold State.produced at hbatch
    rw [hempty, htaken'] at hbatch
    split_ifs at hbatch
    all_goals
      simp only [List.mem_append, List.mem_singleton, List.mem_replicate] at hbatch
      tauto

theorem Reading.length_le (h : Reading threshold file s) (hthreshold : 1 ≤ threshold)
    (hdefined : s.buffering ≠ .undefined) {batch : List String} (hbatch : batch ∈ s.produced) :
    (batch.length : Int) ≤ threshold := by
  have hall := readAll_length_le hthreshold file
  rcases h.mem_produced hdefined hbatch with hmem | rfl | rfl
  · exact hall.1 batch hmem
  · have := hall.2
    rw [List.length_dropLast]
    omega
  · simp
    omega

theorem Reading.finished (h : Reading threshold file s) (hpc : s.buffering = .finished) :
    (readAll threshold file).2 ≠ [] ∧ s.produced.flatten =
      (readAll threshold file).1.flatten ++ (readAll threshold file).2.dropLast := by
  unfold State.produced
  rw [if_pos hpc]
  cases h with
  | filling line hpc' => simp [hpc] at hpc'
  | announcing line hpc' => simp [hpc] at hpc'
  | announced line hpc' => simp [hpc] at hpc'
  | swapped line hpc' => simp [hpc] at hpc'
  | popping hpc' => simp [hpc] at hpc'
  | undefined hpc' => simp [hpc] at hpc'
  | last _ hne htaken hread =>
    refine ⟨hne, ?_⟩
    rw [htaken, hread]
    simp
  | ended k _ hne hempty htaken =>
    refine ⟨hne, ?_⟩
    rw [htaken, hempty]
    simp

/-! ## A run to the end -/

theorem reachable_buffer {init : State} (hs : Reachable (step threshold) TakesComplete init s)
    (hstep : s.buffer threshold = some s') :
    Reachable (step threshold) TakesComplete init s' :=
  .step .buffer hs (show TakesComplete s .buffer from trivial) hstep

theorem reachable_check {init : State} (hs : Reachable (step threshold) TakesComplete init s)
    (hstep : s.check = some s') : Reachable (step threshold) TakesComplete init s' :=
  .step .check hs (show TakesComplete s .check from trivial) hstep

/-- The streaming thread sends what it has. -/
theorem reachable_sent {init : State} (hs : Reachable (step threshold) TakesComplete init s) :
    Reachable (step threshold) TakesComplete init { s with requestBuffer := [] } := by
  generalize hq : s.requestBuffer = q
  induction q generalizing s with
  | nil =>
    rw [← hq]
    exact hs
  | cons line q ih =>
    have hsend : step threshold s .send = some { s with requestBuffer := q } := by
      simp [FileBuffer.step, State.send, hq]
    have hsent : Reachable (step threshold) TakesComplete init { s with requestBuffer := q } :=
      .step .send hs (show TakesComplete s .send from trivial) hsend
    exact ih (s := { s with requestBuffer := q }) hsent rfl

/-- A batch is announced, taken while the buffering thread waits, and the next one begins. -/
theorem exists_swapped {init : State} {line : String}
    (hs : Reachable (step threshold) TakesComplete init s) (hpc : s.buffering = .announcing line)
    (hready : s.ready = false) :
    ∃ s', Reachable (step threshold) TakesComplete init s' ∧ s'.buffering = .filling line 0 ∧
      s'.rest = s.rest ∧ s'.ready = false := by
  have hannounced : Reachable (step threshold) TakesComplete init { s with
      streamCurrentBatch := true
      announced := s.announced + 1
      buffering := .clearing line } := reachable_buffer hs (by simp [State.buffer, hpc])
  have hwaiting := reachable_sent (reachable_buffer hannounced rfl)
  have hseen : Reachable (step threshold) TakesComplete init { s with
      streamCurrentBatch := true
      announced := s.announced + 1
      readNextBatch := false
      buffering := .waiting line
      requestBuffer := []
      ready := true } := reachable_check hwaiting (by simp [State.check, hready])
  have htaken : Reachable (step threshold) TakesComplete init _ :=
    .step .take hseen (show TakesComplete _ .take from .inl ⟨rfl, rfl⟩) rfl
  exact ⟨_, reachable_buffer htaken rfl, rfl, rfl, rfl⟩

theorem exists_end_of_popping {init : State}
    (hs : Reachable (step threshold) TakesComplete init s) (hpc : s.buffering = .poppingLast) :
    ∃ s', Reachable (step threshold) TakesComplete init s' ∧
      (s'.buffering = .finished ∨ s'.buffering = .undefined) := by
  by_cases hempty : s.readBuffer = []
  · exact ⟨_, reachable_buffer hs (by rw [State.buffer, hpc]; exact if_pos hempty), .inr rfl⟩
  · have hlast := reachable_buffer hs (by rw [State.buffer, hpc]; exact if_neg hempty)
    exact ⟨_, reachable_buffer hlast rfl, .inl rfl⟩

theorem exists_end {init : State} {line : String} {lineCount : Nat}
    (hs : Reachable (step threshold) TakesComplete init s)
    (hpc : s.buffering = .filling line lineCount) (hready : s.ready = false) :
    ∃ s', Reachable (step threshold) TakesComplete init s' ∧
      (s'.buffering = .finished ∨ s'.buffering = .undefined) := by
  generalize hrest : s.rest = rest
  induction rest generalizing s line lineCount with
  | nil =>
    have hfill := reachable_buffer hs (by rw [State.buffer, hpc])
    exact exists_end_of_popping hfill (by simp [State.fill, hrest])
  | cons next rest ih =>
    have hfill := reachable_buffer hs (by rw [State.buffer, hpc])
    simp only [State.fill, hrest] at hfill
    split_ifs at hfill with hcount hlast
    · exact ih hfill rfl hready rfl
    · exact exists_end_of_popping hfill rfl
    · obtain ⟨s', hs', hpc', hrest', hready'⟩ := exists_swapped hfill rfl hready
      exact ih hs' hpc' hready' hrest'

/-! ## The last row -/

/-- A run of which every batch is taken when it is complete loses the last row and no other one
exactly if the end of the file comes at the right place. -/
theorem produced_iff_ends (file : List String) (hthreshold : 1 ≤ threshold) :
    (∀ s, Reachable (step threshold) TakesComplete (start file) s →
      s.buffering ≠ .undefined ∧ (∀ batch ∈ s.produced, (batch.length : Int) ≤ threshold) ∧
        (s.buffering = .finished → s.produced.flatten = (rows file).dropLast)) ↔
      Ends threshold file := by
  rw [← exact_iff_ends hthreshold]
  constructor
  · intro h
    obtain ⟨s, hs, hpc⟩ : ∃ s, Reachable (step threshold) TakesComplete (start file) s ∧
        (s.buffering = .finished ∨ s.buffering = .undefined) := exists_end .start rfl rfl
    obtain ⟨hdefined, -, hrows⟩ := h s hs
    rcases hpc with hpc | hpc
    · obtain ⟨hne, hproduced⟩ := (reads_of_reachable hs).reading.finished hpc
      exact ⟨hne, hproduced.symm.trans (hrows hpc)⟩
    · exact absurd hpc hdefined
  · rintro ⟨hne, hexact⟩ s hs
    have hreading := (reads_of_reachable hs).reading
    have hdefined : s.buffering ≠ .undefined := by
      intro hpc
      cases hreading with
      | undefined _ hempty => exact hne hempty
      | filling line hpc' => simp [hpc] at hpc'
      | announcing line hpc' => simp [hpc] at hpc'
      | announced line hpc' => simp [hpc] at hpc'
      | swapped line hpc' => simp [hpc] at hpc'
      | popping hpc' => simp [hpc] at hpc'
      | last hpc' => simp [hpc] at hpc'
      | ended k hpc' => simp [hpc] at hpc'
    refine ⟨hdefined, fun batch hbatch => hreading.length_le hthreshold hdefined hbatch, ?_⟩
    intro hpc
    exact (hreading.finished hpc).2.trans hexact

/-- Four rows in batches of two. -/
def fourRows : List String := ["## header", "a", "b", "c", "d"]

theorem four_rows_produced :
    rows fourRows = ["a", "b", "c", "d"] ∧
      ∀ s, Reachable (step 2) TakesComplete (start fourRows) s →
        s.buffering ≠ .undefined ∧ (∀ batch ∈ s.produced, (batch.length : Int) ≤ 2) ∧
          (s.buffering = .finished → s.produced.flatten = (rows fourRows).dropLast) := by
  have hrows : rows fourRows = ["a", "b", "c", "d"] := by decide
  refine ⟨hrows, ?_⟩
  refine (produced_iff_ends fourRows (by decide)).2 ⟨by decide, by decide, by decide, ?_⟩
  intro _ _ _
  rw [hrows]
  decide

/-- With three rows the third is read ahead of a full batch and not kept. -/
theorem three_rows_not_produced :
    ¬ ∀ (file : List String) (threshold : Int), 1 ≤ threshold →
      ∀ s, Reachable (step threshold) TakesComplete (start file) s →
        s.buffering ≠ .undefined ∧ (∀ batch ∈ s.produced, (batch.length : Int) ≤ threshold) ∧
          (s.buffering = .finished → s.produced.flatten = (rows file).dropLast) := by
  intro h
  obtain ⟨s, hs, hf⟩ := exists_reachable_of_run (step 2) TakesComplete (start ["a", "b", "c"])
    (fun s => (s.buffering, s.produced)) (.finished, [["a"]])
    [.buffer, .buffer, .buffer, .buffer] (by decide)
  obtain ⟨hpc, hproduced⟩ := Prod.mk.inj hf
  have hlost := (h ["a", "b", "c"] 2 (by decide) s hs).2.2 hpc
  rw [hproduced] at hlost
  revert hlost
  decide

end FileBuffer

end SatComm
