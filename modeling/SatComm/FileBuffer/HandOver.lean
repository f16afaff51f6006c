import SatComm.FileBuffer.Threads

/-!
# The hand-over of a batch

The buffering thread lowers `readNextBatch_` after it has announced the batch, and lowers
`streamCurrentBatch_` after it has been woken. A swap between the announcement and the first of
these leaves it waiting for a batch that is taken; a swap after the wait was over finds a batch that
is not complete. Where the swaps come while the buffering thread waits, or after the last batch,
every batch is taken once, whole and in its turn.
-/

namespace SatComm

namespace FileBuffer

open Runs

variable {threshold : Int} {file : List String} {s s' : State}

/-- Every batch is taken once, in its turn and whole, and none is waited for that is taken. Swaps
after the last batch find nothing. -/
structure HandedOver (threshold : Int) (file : List String) (s : State) : Prop where
  defined : s.buffering ≠ .undefined
  inOrder : s.taken <+: batches threshold file ∨
    (s.buffering = .announcingLast ∨ s.buffering = .finished) ∧
      ∃ k, s.taken = batches threshold file ++ List.replicate k []
  complete : s.result = some false → batches threshold file <+: s.taken
  notLost : ∀ line, s.buffering = .waiting line → s.readNextBatch = false →
    s.taken.length < s.announced

/-- A swap comes while the buffering thread waits for it or after the last batch, and the last
batch has a line to drop. -/
def InTurn (s : State) : Step → Prop
  | .take => (s.buffering matches .waiting _) ∧ s.readNextBatch = false ∨
    s.buffering = .announcingLast ∨ s.buffering = .finished
  | .buffer => s.buffering = .poppingLast → s.readBuffer ≠ []
  | .check | .send => True

instance (s : State) : DecidablePred (InTurn s)
  | .take => inferInstanceAs (Decidable (_ ∧ _ ∨ _ ∨ _))
  | .buffer => inferInstanceAs (Decidable (_ → _))
  | .check | .send => inferInstanceAs (Decidable True)

/-- The batches not taken yet, from where the buffering thread is. -/
inductive Flow (threshold : Int) (file : List String) : State → Prop
  | filling {s : State} (line : String) (lineCount : Nat) :
    s.buffering = .filling line lineCount →
    batches threshold file = s.taken ++ batchesFrom threshold s.readBuffer lineCount line s.rest →
    s.taken.length = s.announced → s.reachedEOF = false → Flow threshold file s
  | announcing {s : State} (line : String) : s.buffering = .announcing line →
    batches threshold file =
      s.taken ++ s.readBuffer :: batchesFrom threshold [] 0 line s.rest →
    s.taken.length = s.announced → s.reachedEOF = false → Flow threshold file s
  | announced {s : State} (line : String) :
    s.buffering = .clearing line ∨ s.buffering = .waiting line ∧ s.readNextBatch = false →
    batches threshold file =
      s.taken ++ s.readBuffer :: batchesFrom threshold [] 0 line s.rest →
    s.taken.length + 1 = s.announced → s.reachedEOF = false → Flow threshold file s
  | swapped {s : State} (line : String) :
    s.buffering = .waiting line → s.readNextBatch = true → s.readBuffer = [] →
    batches threshold file = s.taken ++ batchesFrom threshold [] 0 line s.rest →
    s.taken.length = s.announced → s.reachedEOF = false → Flow threshold file s
  | poppingLast {s : State} : s.buffering = .poppingLast →
    batches threshold file = s.taken ++ [s.readBuffer.dropLast] → s.reachedEOF = false →
    Flow threshold file s
  | last {s : State} : s.buffering = .announcingLast ∨ s.buffering = .finished →
    batches threshold file = s.taken ++ [s.readBuffer] → Flow threshold file s
  | ended {s : State} (k : Nat) : s.buffering = .announcingLast ∨ s.buffering = .finished →
    s.readBuffer = [] → s.taken = batches threshold file ++ List.replicate k [] →
    Flow threshold file s

/-- The invariant. -/
structure Flowing (threshold : Int) (file : List String) (s : State) : Prop where
  flow : Flow threshold file s
  ready : s.ready → s.requestBuffer = []
  complete : s.result = some false → batches threshold file <+: s.taken

theorem Flowing.handedOver (h : Flowing threshold file s) : HandedOver threshold file s := by
  obtain ⟨hflow, -, hcomplete⟩ := h
  have hfront : ∀ rest, batches threshold file = s.taken ++ rest →
      s.taken <+: batches threshold file := fun rest heq => heq ▸ List.prefix_append _ _
  cases hflow with
  | filling line lineCount hpc hbatches =>
    exact ⟨by simp [hpc], .inl (hfront _ hbatches), hcomplete, by simp [hpc]⟩
  | announcing line hpc hbatches =>
    exact ⟨by simp [hpc], .inl (hfront _ hbatches), hcomplete, by simp [hpc]⟩
  | announced line hpc hbatches hcount =>
    refine ⟨?_, .inl (hfront _ hbatches), hcomplete, fun _ _ _ => by omega⟩
    rcases hpc with hpc | ⟨hpc, -⟩ <;> simp [hpc]
  | swapped line hpc hnext _ hbatches =>
    exact ⟨by simp [hpc], .inl (hfront _ hbatches), hcomplete, by simp [hnext]⟩
  | poppingLast hpc hbatches =>
    exact ⟨by simp [hpc], .inl (hfront _ hbatches), hcomplete, by simp [hpc]⟩
  | last hpc hbatches =>
    refine ⟨?_, .inl (hfront _ hbatches), hcomplete, ?_⟩ <;> rcases hpc with hpc | hpc <;>
      simp [hpc]
  | ended k hpc _ htaken =>
    refine ⟨?_, .inr ⟨hpc, k, htaken⟩, hcomplete, ?_⟩ <;> rcases hpc with hpc | hpc <;> simp [hpc]

theorem flowing_start (threshold : Int) (file : List String) :
    Flowing threshold file (start file) := by
  refine ⟨.filling _ _ rfl rfl rfl rfl, nofun, nofun⟩

/-! ## The buffering thread -/

theorem flow_fill {line : String} {lineCount : Nat}
    (hbatches : batches threshold file =
      s.taken ++ batchesFrom threshold s.readBuffer lineCount line s.rest)
    (hcount : s.taken.length = s.announced) (heof : s.reachedEOF = false) :
    Flow threshold file (s.fill threshold line lineCount) := by
  cases hrest : s.rest with
  | nil =>
    rw [hrest, batchesFrom] at hbatches
    simp only [State.fill, hrest]
    exact .poppingLast rfl hbatches heof
  | cons next rest =>
    rw [hrest, batchesFrom] at hbatches
    simp only [State.fill, hrest]
    split_ifs at hbatches ⊢
    · exact .filling next _ rfl hbatches hcount heof
    · exact .poppingLast rfl hbatches heof
    · exact .announcing next rfl hbatches hcount heof

theorem Flow.buffer (h : Flow threshold file s)
    (hlast : s.buffering = .poppingLast → s.readBuffer ≠ [])
    (hstep : s.buffer threshold = some s') : Flow threshold file s' := by
  cases h with
  | filling line lineCount hpc hbatches hcount heof =>
    simp only [State.buffer, hpc, Option.some.injEq] at hstep
    exact hstep ▸ flow_fill hbatches hcount heof
  | announcing line hpc hbatches hcount heof =>
    simp only [State.buffer, hpc, Option.some.injEq] at hstep
    subst hstep
    exact .announced line (.inl rfl) hbatches (congrArg (· + 1) hcount) heof
  | announced line hpc hbatches hcount heof =>
    rcases hpc with hpc | ⟨hpc, hnext⟩
    · simp only [State.buffer, hpc, Option.some.injEq] at hstep
      subst hstep
      exact .announced line (.inr ⟨rfl, rfl⟩) hbatches hcount heof
    · -- the wait is not over
      simp [State.buffer, hpc, hnext] at hstep
  | swapped line hpc hnext hempty hbatches hcount heof =>
    simp only [State.buffer, hpc, hnext, if_true, Option.some.injEq] at hstep
    subst hstep
    refine .filling line 0 rfl ?_ hcount heof
    rw [hempty]
    exact hbatches
  | poppingLast hpc hbatches heof =>
    simp only [State.buffer, hpc, hlast hpc, if_false, Option.some.injEq] at hstep
    subst hstep
    exact .last (.inl rfl) hbatches
  | last hpc hbatches =>
    rcases hpc with hpc | hpc
    · simp only [State.buffer, hpc, Option.some.injEq] at hstep
      subst hstep
      exact .last (.inr rfl) hbatches
    · simp [State.buffer, hpc] at hstep
  | ended k hpc hempty htaken =>
    rcases hpc with hpc | hpc
    · simp only [State.buffer, hpc, Option.some.injEq] at hstep
      subst hstep
      exact .ended k (.inr rfl) hempty htaken
    · simp [State.buffer, hpc] at hstep

/-- What the buffering thread does not touch. -/
theorem buffer_frame (hstep : s.buffer threshold = some s') :
    s'.taken = s.taken ∧ s'.result = s.result ∧ s'.ready = s.ready ∧
      s'.requestBuffer = s.requestBuffer := by
  rw [State.buffer] at hstep
  split at hstep
  · obtain rfl := Option.some.inj hstep
    simp only [State.fill]
    split
    · exact ⟨rfl, rfl, rfl, rfl⟩
    · split_ifs <;> exact ⟨rfl, rfl, rfl, rfl⟩
  · obtain rfl := Option.some.inj hstep
    exact ⟨rfl, rfl, rfl, rfl⟩
  · obtain rfl := Option.some.inj hstep
    exact ⟨rfl, rfl, rfl, rfl⟩
  · split_ifs at hstep
    obtain rfl := Option.some.inj hstep
    exact ⟨rfl, rfl, rfl, rfl⟩
  · split_ifs at hstep
    · obtain rfl := Option.some.inj hstep
      exact ⟨rfl, rfl, rfl, rfl⟩
    · obtain rfl := Option.some.inj hstep
      exact ⟨rfl, rfl, rfl, rfl⟩
  · obtain rfl := Option.some.inj hstep
    exact ⟨rfl, rfl, rfl, rfl⟩
  · cases hstep
  · cases hstep

/-! ## The streaming thread -/

/-- A swap in its turn takes the batch that comes next, or nothing after the last one. -/
theorem Flowing.take (h : Flowing threshold file s) (hturn : InTurn s .take)
    (hstep : s.take = some s') : Flowing threshold file s' := by
  rw [State.take] at hstep
  split_ifs at hstep with hready
  obtain rfl := Option.some.inj hstep
  have hrequest := h.ready hready
  cases h.flow with
  | filling line lineCount hpc => simp [InTurn, hpc] at hturn
  | announcing line hpc => simp [InTurn, hpc] at hturn
  | announced line hpc hbatches hcount heof =>
    rcases hpc with hpc | ⟨hpc, -⟩
    · simp [InTurn, hpc] at hturn
    · refine ⟨.swapped line hpc rfl hrequest ?_ ?_ heof, nofun, ?_⟩
      · simpa using hbatches
      · simpa using hcount
      · simp [heof]
  | swapped line hpc hnext => simp [InTurn, hpc, hnext] at hturn
  | poppingLast hpc => simp [InTurn, hpc] at hturn
  | last hpc hbatches =>
    refine ⟨.ended 0 hpc hrequest ?_, nofun, fun _ => ?_⟩
    · simpa using hbatches.symm
    · exact hbatches ▸ List.prefix_refl _
  | ended k hpc hempty htaken =>
    refine ⟨.ended (k + 1) hpc hrequest ?_, nofun, fun _ => ?_⟩
    · simp [hempty, htaken, List.replicate_succ']
    · exact (htaken ▸ List.prefix_append _ _ : _ <+: s.taken).trans (List.prefix_append _ _)

theorem Flow.congr (h : Flow threshold file s) (hbuffering : s'.buffering = s.buffering)
    (hrest : s'.rest = s.rest) (hread : s'.readBuffer = s.readBuffer)
    (hnext : s'.readNextBatch = s.readNextBatch) (heof : s'.reachedEOF = s.reachedEOF)
    (hannounced : s'.announced = s.announced) (htaken : s'.taken = s.taken) :
    Flow threshold file s' := by
  cases h with
  | filling line lineCount =>
    apply Flow.filling line lineCount <;> simp_all
  | announcing line =>
    apply Flow.announcing line <;> simp_all
  | announced line =>
    apply Flow.announced line <;> simp_all
  | swapped line =>
    apply Flow.swapped line <;> simp_all
  | poppingLast =>
    apply Flow.poppingLast <;> simp_all
  | last =>
    apply Flow.last <;> simp_all
  | ended k =>
    apply Flow.ended k <;> simp_all

theorem Flowing.step (h : Flowing threshold file s) {e : Step} (hturn : InTurn s e)
    (hstep : FileBuffer.step threshold s e = some s') : Flowing threshold file s' := by
  cases e with
  | buffer =>
    obtain ⟨htaken, hresult, hready, hrequest⟩ := buffer_frame hstep
    refine ⟨h.flow.buffer hturn hstep, ?_, ?_⟩
    · rw [hready, hrequest]
      exact h.ready
    · rw [hresult, htaken]
      exact h.complete
  | check =>
    simp only [FileBuffer.step, State.check] at hstep
    split_ifs at hstep with hwait
    obtain rfl := Option.some.inj hstep
    exact ⟨h.flow.congr rfl rfl rfl rfl rfl rfl rfl, fun _ => hwait.1, h.complete⟩
  | take => exact h.take hturn hstep
  | send =>
    simp only [FileBuffer.step, State.send] at hstep
    split_ifs at hstep with hne
    obtain rfl := Option.some.inj hstep
    exact ⟨h.flow.congr rfl rfl rfl rfl rfl rfl rfl, fun hready => absurd (h.ready hready) hne,
      h.complete⟩

/-! ## Runs -/

/-- Where every swap comes in its turn, every batch is handed over. -/
theorem handedOver_of_inTurn (h : Reachable (step threshold) InTurn (start file) s) :
    HandedOver threshold file s := by
  apply Flowing.handedOver
  apply h.invariant (flowing_start threshold file)
  intro s e s' hok hstep hs
  exact hs.step hok hstep

/-- Five rows in batches of two. -/
def fiveRows : List String := ["## header", "a", "b", "c", "d", "e"]

/-- The last row is not kept, and the one before it is dropped. -/
theorem five_rows_handedOver :
    ∃ s, s.taken = [["a", "b"], ["c"], []] ∧ s.result = some false ∧ HandedOver 2 fiveRows s := by
  obtain ⟨s, hs, hf⟩ := exists_reachable_of_run (step 2) InTurn (start fiveRows)
    (fun s => (s.taken, s.result)) ([["a", "b"], ["c"], []], some false)
    [.buffer, .buffer, .buffer, .buffer, .check, .take, .buffer, .buffer, .buffer, .buffer,
      .buffer, .send, .send, .check, .take, .send, .check, .take] (by decide)
  obtain ⟨htaken, hresult⟩ := Prod.mk.inj hf
  exact ⟨s, htaken, hresult, handedOver_of_inTurn hs⟩

/-- The batch is announced and swapped out before `readNextBatch_` is lowered. -/
theorem early_swap_not_handedOver :
    ∃ s, Reachable (step 1) anyStep (start ["a", "b", "c"]) s ∧
      ¬ HandedOver 1 ["a", "b", "c"] s := by
  obtain ⟨s, hs, hf⟩ := exists_reachable_of_run (step 1) anyStep (start ["a", "b", "c"])
    (fun s => (s.buffering, s.readNextBatch, s.taken, s.announced))
    (.waiting "b", false, [["a"]], 1) [.buffer, .buffer, .check, .take, .buffer] (by decide)
  obtain ⟨hpc, hf⟩ := Prod.mk.inj hf
  obtain ⟨hnext, hf⟩ := Prod.mk.inj hf
  obtain ⟨htaken, hannounced⟩ := Prod.mk.inj hf
  refine ⟨s, hs, fun h => ?_⟩
  have hlt := h.notLost "b" hpc hnext
  rw [htaken, hannounced] at hlt
  exact absurd hlt (by simp)

end FileBuffer

end SatComm
