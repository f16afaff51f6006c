import SatComm.Player.Errors

/-!
# Truthful reports

The code that is reported is that of what has failed when each operation that fails leaves its code
in `errToReport_`, when no answer comes that nobody waits for, and when an error is not followed by
the answer to a write that succeeds. The proof follows what `errToReport_` holds where the thread
stands: nothing but the errors of the repetition while a file is played, and the code that is on its
way to the report after that.
-/

namespace SatComm

namespace Player

namespace Errors

open Entries (setFormatAndOffset)

/-- The code is one of what has failed, and a file is not played with an error. -/
def Report.Truthful : Report → Prop
  | .error ec causes _ => ec ∈ causes ∧ ec ≠ .success
  | .filePlayed _ errors => errors = []

def Truthful (s : State) : Prop := ∀ r ∈ s.log, r.Truthful

/-- Neither a stop nor SSR ends the session before the next turn. -/
def GoesOn (s : State) : Prop := s.hasSsrOccurred = false ∧ s.hasUserRequestedStop = false

/-- An error is on its way to the report, since these have failed. -/
def pending (s : State) : Option (List ErrorCode) :=
  match s.thread with
  | .loop .reportError | .turn .reportError => some s.causes
  | .closing (.failing ec) | .deleting (.failing ec) => some [ec]
  | _ => none

/-- The error was reported, or the session is over. -/
def isOver (s : State) : Bool :=
  s.thread = .loop .terminate ∨ s.thread = .turn .terminate ∨ s.thread = .ended

/-- The code with which the next step fails, where it does not set `errToReport_`. -/
def unstored (s : State) (choice : Choice) : Option ErrorCode :=
  match s.thread, choice with
  | .opening, .fails ec | .configuring, .fails ec | .registering, .fails ec | .writing, .fails ec =>
    some ec
  | .creating, .timeout | .waitingForAnswers, .timeout | .waitingForStop, .timeout
  | .draining, .timeout => some .operationTimeout
  | .preparingBuffers, .fails _ => some .noMemory
  | .preparingBuffers, .proceed =>
    if setFormatAndOffset s.format = none then some .invalidArguments else none
  | .reading, .fails _ => some .systemErr
  | .stopping, .fails ec => if ec = .requestRateLimited then none else some ec
  | _, _ => none

/-- The code of a failure is in `errToReport_` and stays there: an operation that does not set it
finds it there, an answer that nobody waits for does not change it, a write that succeeds is not
answered after an error, and SSR does not end in between. -/
def Told (s : State) : Step → Prop
  | .player choice => GoesOn s → ∀ ec ∈ unstored s choice, s.errToReport = ec
  | .createStreamComplete result => isOver s = true ∨ s.thread = .creating ∨ result = s.errToReport
  | .deleteStreamComplete result =>
    isOver s = true ∨ s.thread = .deleting .reopening ∨ result = s.errToReport
  | .stopAudioComplete result => isOver s = true ∨
    s.thread = .waitingForStop ∧ s.isStopResponseReady = false ∨ result = s.errToReport
  | .writeComplete _ ec => isOver s = true ∨ ec = s.errToReport ∨
    pending s = none ∧ (s.errors ≠ [] → ec ≠ .success)
  | .onServiceStatusChange available => available = true → s.hasSsrOccurred = true →
    ∀ causes ∈ pending s, s.errToReport ∈ causes
  | .onReadyForWrite | .onPlayStopped | .stopPlayback => True

instance (s : State) : Decidable (GoesOn s) := inferInstanceAs (Decidable (_ ∧ _))

instance (s : State) (e : Step) : Decidable (Told s e) := by
  cases e <;> unfold Told <;> infer_instance

/-! ## What is known of `errToReport_` -/

/-- No file is being played, and no answer to a write or a creation is due. -/
structure Quiet (s : State) : Prop where
  clean : s.errors = []
  inFlight : s.inFlight = 0

/-- Between two files, or before a file is played. -/
structure Between (s : State) : Prop extends Quiet s where
  told : s.errToReport = .success
  creates : s.creates = 0
  buffers : if s.isStreamOpened then s.pool = 2 ∧ s.buffersAllocated = true else s.pool = 0

/-- A file is played; so many buffers are in the hands of the player thread. -/
structure Playing (s : State) (taken : ℕ) : Prop where
  told : s.errors = [] ∧ s.errToReport = .success ∨ s.errToReport ∈ s.errors
  failed : .success ∉ s.errors
  creates : s.creates = 0
  opened : s.isStreamOpened = true
  allocated : s.buffersAllocated = true
  buffers : s.pool + s.inFlight + taken = 2

/-- All writes of the file are answered. -/
structure Drained (s : State) : Prop extends Playing s 0 where
  answered : s.inFlight = 0

/-- None of them with an error. -/
structure Clean (s : State) : Prop extends Drained s where
  clean : s.errors = []

/-- The error that is on its way to the report. -/
structure Pending (s : State) (causes : List ErrorCode) : Prop where
  told : GoesOn s → s.errToReport ∈ causes
  failed : .success ∉ causes

def Phase (s : State) : Prop :=
  match s.thread with
  | .loop .initPlayer | .turn .initPlayer =>
    Between s ∧ s.isFileOpened = false ∧ s.numTimesFilePlayed = 0
  | .loop .selectFile | .turn .selectFile =>
    Between s ∧ (s.isFileOpened = true ∨ s.numTimesFilePlayed ≠ 0 → s.isStreamOpened = true)
  | .loop .initFile | .turn .initFile | .loop .reinitStream | .turn .reinitStream
  | .loop .reportFinish | .turn .reportFinish => Between s
  | .loop .deinitFile | .turn .deinitFile => Between s ∧ s.isStreamOpened = true
  | .closing .reopening | .deleting .reopening => Quiet s ∧ s.creates = 0
  | .opening => Quiet s ∧ s.pool = 0 ∧ s.creates = 0
  | .creating => Quiet s ∧ s.pool = 0 ∧
    if s.isCreateResponseReady then s.creates = 0 ∧ s.errToReport = s.createResult ∧
      (s.createResult = .success → s.isStreamOpened = true)
    else s.creates = 1
  | .configuring | .preparingBuffers => Quiet s ∧ s.pool = 0 ∧ s.creates = 0 ∧
    s.errToReport = .success ∧ s.isStreamOpened = true
  | .registering => Between s ∧ s.isStreamOpened = true
  | .loop .playSamples | .turn .playSamples | .waitingForBuffer | .testingEof
  | .loop .filePlayEnd | .turn .filePlayEnd | .countingBuffers | .waitingForAnswers => Playing s 0
  | .waitingForAdsp => Playing s 0 ∧ s.pool ≠ 0
  | .reading | .writing => Playing s 1
  | .finalizing | .resending => Drained s
  | .stopping | .draining | .loop .reportPlayed | .turn .reportPlayed => Clean s
  | .waitingForStop => Drained s ∧ (s.isStopResponseReady = false → s.errors = [])
  | .loop .reportError => Pending s s.causes
  | .turn .reportError => s.errToReport ∈ s.causes ∧ .success ∉ s.causes
  | .closing (.failing ec) | .deleting (.failing ec) => Pending s [ec]
  | .loop .terminate | .turn .terminate | .ended => True

structure Inv (s : State) : Prop where
  phase : Phase s
  log : Truthful s

variable {s s' : State} {choice : Choice} {ec : ErrorCode}

/-- What `Told` says of a step of the player thread. -/
def Stores (s : State) (choice : Choice) : Prop :=
  GoesOn s → ∀ ec ∈ unstored s choice, s.errToReport = ec

/-- It says so for the place where the thread is. -/
theorem Stores.told {thread : Thread} (h : Stores s choice) (hthread : s.thread = thread)
    (hunstored : unstored { s with thread } choice = some ec) :
    GoesOn s → s.errToReport = ec := by
  subst hthread
  exact fun hgoes => h hgoes ec hunstored

/-! ## How an operation ends -/

theorem Inv.failFor {causes : List ErrorCode} (hlog : Truthful s)
    (htold : GoesOn s → s.errToReport ∈ causes) (hfailed : .success ∉ causes) :
    Inv (s.failFor causes) :=
  ⟨⟨htold, hfailed⟩, hlog⟩

theorem Inv.fail (hlog : Truthful s) (htold : GoesOn s → s.errToReport = ec)
    (hec : ec ≠ .success) : Inv (s.fail ec) :=
  Inv.failFor hlog (fun hgoes => List.mem_singleton.mpr (htold hgoes))
    (fun hmem => hec (List.mem_singleton.mp hmem).symm)

/-- The code is stored before. -/
theorem Inv.failStored (hlog : Truthful s) (hec : ec ≠ .success) : Inv (s.failStored ec) :=
  Inv.fail hlog (fun _ => rfl) hec

/-- What a stop or SSR ends is not reported. -/
theorem Inv.interrupted (hlog : Truthful s) (hec : ec ≠ .success) (hover : ¬ GoesOn s) :
    Inv (s.fail ec) :=
  Inv.fail hlog (fun hgoes => absurd hgoes hover) hec

/-- A wait ends in one of three ways. -/
theorem wait_inv {ready : Bool} {woken : State} {failed : ErrorCode → State}
    (hs : s.wait ready woken failed choice = some s')
    (hwoken : (ready || s.hasSsrOccurred || s.hasUserRequestedStop) = true → GoesOn s →
      Inv woken)
    (hinterrupted : ∀ ec, ec ≠ .success → ¬ GoesOn s → Inv (failed ec))
    (htimeout : choice = .timeout → GoesOn s → Inv (failed .operationTimeout)) : Inv s' := by
  unfold State.wait at hs
  split at hs
  · split_ifs at hs with hready hssr hstop <;> cases hs
    · exact hinterrupted _ nofun fun hgoes => by
        rw [hgoes.1] at hssr
        cases hssr
    · exact hinterrupted _ nofun fun hgoes => by
        rw [hgoes.2] at hstop
        cases hstop
    · exact hwoken hready ⟨by simpa using hssr, by simpa using hstop⟩
  · split_ifs at hs with hready
    cases hs
    simp only [Bool.or_eq_true, not_or, Bool.not_eq_true] at hready
    exact htimeout rfl ⟨hready.1.2, hready.2⟩
  all_goals cases hs

/-- A call is accepted or fails. -/
theorem call_inv {accepted : State} {failed : ErrorCode → State}
    (hs : State.call accepted failed choice = some s') (haccepted : Inv accepted)
    (hfailed : ∀ ec, choice = .fails ec → ec ≠ .success → Inv (failed ec)) : Inv s' := by
  unfold State.call at hs
  split at hs
  · cases hs
    exact haccepted
  · split_ifs at hs with hec
    cases hs
    exact hfailed _ rfl hec
  all_goals cases hs

/-! ## The stream -/

theorem leave_inv {next : Deinit} (hlog : Truthful s)
    (hphase : match next with
      | .reopening => Quiet s ∧ s.creates = 0
      | .failing ec => Pending s [ec]) : Inv (s.leave next) := by
  cases next with
  | reopening => exact ⟨⟨⟨hphase.1.clean, hphase.1.inFlight⟩, rfl, hphase.2⟩, hlog⟩
  | failing ec => exact ⟨⟨hphase.told, hphase.failed⟩, hlog⟩

theorem deinitAudioStream_inv {next : Deinit} (h : Inv s) (hthread : s.thread = .closing next)
    (hs : s.deinitAudioStream next choice = some s') : Inv s' := by
  have hphase := h.phase
  rw [Phase, hthread] at hphase
  have hleave : ∀ {t : State}, t.log = s.log → t.errors = s.errors → t.inFlight = s.inFlight →
      t.creates = s.creates → t.errToReport = s.errToReport →
      t.hasSsrOccurred = s.hasSsrOccurred → t.hasUserRequestedStop = s.hasUserRequestedStop →
      Inv (t.leave next) := by
    intro t hlog herrors hflight hcreates htold hssr hstop
    refine leave_inv (by rw [Truthful, hlog]; exact h.log) ?_
    cases next with
    | reopening => exact ⟨⟨herrors.trans hphase.1.clean, hflight.trans hphase.1.inFlight⟩,
        hcreates.trans hphase.2⟩
    | failing ec =>
      refine ⟨fun hgoes => ?_, hphase.failed⟩
      rw [htold]
      exact hphase.told ⟨hssr ▸ hgoes.1, hstop ▸ hgoes.2⟩
  unfold State.deinitAudioStream at hs
  split_ifs at hs
  · refine call_inv hs ⟨?_, h.log⟩ fun _ _ _ => hleave rfl rfl rfl rfl rfl rfl rfl
    cases next with
    | reopening => exact ⟨⟨hphase.1.clean, hphase.1.inFlight⟩, hphase.2⟩
    | failing ec => exact ⟨hphase.told, hphase.failed⟩
  · cases hs
    exact hleave rfl rfl rfl rfl rfl rfl rfl

theorem endDelete_inv {next : Deinit} (h : Inv s) (hthread : s.thread = .deleting next)
    (hs : s.endDelete next choice = some s') : Inv s' := by
  have hphase := h.phase
  rw [Phase, hthread] at hphase
  have hleave : Inv (s.leave next) := by
    refine leave_inv h.log ?_
    cases next with
    | reopening => exact hphase
    | failing ec => exact hphase
  unfold State.endDelete at hs
  dsimp only at hs
  refine wait_inv hs (fun _ _ => ?_) (fun _ _ _ => hleave) fun _ _ => hleave
  split_ifs
  · refine leave_inv h.log ?_
    cases next with
    | reopening => exact ⟨⟨hphase.1.clean, hphase.1.inFlight⟩, hphase.2⟩
    | failing ec => exact ⟨hphase.told, hphase.failed⟩
  · exact hleave

theorem initAudioStream_inv (h : Inv s) (hthread : s.thread = .opening)
    (hok : Stores s choice)
    (hs : s.initAudioStream choice = some s') : Inv s' := by
  have hphase := h.phase
  rw [Phase, hthread] at hphase
  obtain ⟨hquiet, hpool, hcreates⟩ := hphase
  refine call_inv hs ⟨⟨⟨hquiet.clean, hquiet.inFlight⟩, hpool, ?_⟩, h.log⟩ ?_
  · exact congrArg (· + 1) hcreates
  · rintro ec rfl hec
    exact Inv.fail h.log (hok.told hthread rfl) hec

theorem endCreate_inv (h : Inv s) (hthread : s.thread = .creating)
    (hok : Stores s choice)
    (hs : s.endCreate choice = some s') : Inv s' := by
  have hphase := h.phase
  rw [Phase, hthread] at hphase
  obtain ⟨hquiet, hpool, hanswer⟩ := hphase
  refine wait_inv hs ?_ (fun ec hec hover => Inv.interrupted h.log hec hover) ?_
  · rintro hready ⟨hssr, hstop⟩
    rw [hssr, hstop, Bool.or_false, Bool.or_false] at hready
    rw [if_pos hready] at hanswer
    obtain ⟨hcreates, hresult, hopened⟩ := hanswer
    split_ifs with htold
    · refine Inv.failFor h.log (fun _ => List.mem_singleton.mpr hresult) ?_
      rw [← hresult]
      exact fun hmem => htold (List.mem_singleton.mp hmem).symm
    · have hsuccess := not_not.mp htold
      exact ⟨⟨⟨hquiet.clean, hquiet.inFlight⟩, hpool, hcreates, hsuccess,
        hopened (hresult.symm.trans hsuccess)⟩, h.log⟩
  · rintro rfl hgoes
    exact Inv.fail h.log (hok.told hthread rfl) nofun

theorem prepareBuffers_inv (h : Inv s) (hthread : s.thread = .preparingBuffers)
    (hok : Stores s choice)
    (hs : s.prepareBuffers choice = some s') : Inv s' := by
  have hphase := h.phase
  rw [Phase, hthread] at hphase
  obtain ⟨hquiet, hpool, hcreates, htold, hopened⟩ := hphase
  unfold State.prepareBuffers at hs
  split at hs
  · dsimp only at hs
    split at hs
    · rename_i hformat
      cases hs
      have hstored : GoesOn s → s.errToReport = .invalidArguments :=
        hok.told hthread (if_pos hformat)
      exact ⟨⟨fun hgoes => List.mem_singleton.mpr (hstored hgoes), by simp⟩, h.log⟩
    · cases hs
      refine ⟨⟨⟨⟨hquiet.clean, hquiet.inFlight⟩, htold, hcreates, ?_⟩, hopened⟩, h.log⟩
      rw [hopened, hpool]
      exact ⟨rfl, rfl⟩
    · cases hs
      refine ⟨⟨Or.inl ⟨hquiet.clean, htold⟩, ?_, hcreates, hopened, rfl, ?_⟩, h.log⟩
      · rw [show _ = [] from hquiet.clean]
        exact List.not_mem_nil
      · rw [State.go, hquiet.inFlight, hpool]
  · rename_i ec
    cases hs
    exact ⟨⟨fun hgoes => List.mem_singleton.mpr (hok.told hthread rfl hgoes), by simp⟩, h.log⟩
  all_goals cases hs

/-! ## The samples -/

/-- An error in `errToReport_` is one of the repetition. -/
theorem Playing.mem_errors {taken : ℕ} (h : Playing s taken) (htold : s.errToReport ≠ .success) :
    s.errToReport ∈ s.errors :=
  h.told.resolve_left fun hnone => htold hnone.2

/-- Without one there is none. -/
theorem Playing.errors_eq {taken : ℕ} (h : Playing s taken) (htold : s.errToReport = .success) :
    s.errors = [] := by
  rcases h.told with ⟨hnone, -⟩ | hmem
  · exact hnone
  · rw [htold] at hmem
    exact absurd hmem h.failed

theorem fill_inv (hlog : Truthful s) (h : Playing s 0) (hpool : s.pool ≠ 0) : Inv s.fill := by
  unfold State.fill
  split_ifs
  · exact ⟨⟨⟨h.told, h.failed, h.creates, h.opened, h.allocated, h.buffers⟩, hpool⟩, hlog⟩
  · refine ⟨⟨h.told, h.failed, h.creates, h.opened, h.allocated, ?_⟩, hlog⟩
    have hbuffers := h.buffers
    change s.pool - 1 + s.inFlight + 1 = 2
    omega

theorem endBufferWait_inv (hlog : Truthful s) (h : Playing s 0)
    (hs : s.endBufferWait choice = some s') : Inv s' := by
  unfold State.endBufferWait at hs
  split at hs
  · split_ifs at hs with hssr htold hpool <;> cases hs
    · exact Inv.failStored hlog nofun
    · exact Inv.failFor hlog (fun _ => h.mem_errors htold) h.failed
    · exact fill_inv hlog h hpool
  · cases hs
    exact Inv.failStored hlog nofun
  all_goals cases hs

theorem endAdspWait_inv (hlog : Truthful s) (h : Playing s 0) (hpool : s.pool ≠ 0)
    (hs : s.wait s.isAdspWriteReady { s with pool := s.pool - 1, thread := .reading } s.failStored
      choice = some s') : Inv s' := by
  refine wait_inv hs (fun _ _ => ⟨⟨h.told, h.failed, h.creates, h.opened, h.allocated, ?_⟩, hlog⟩)
    (fun _ hec _ => Inv.failStored hlog hec) (fun _ _ => Inv.failStored hlog nofun)
  have hbuffers := h.buffers
  change s.pool - 1 + s.inFlight + 1 = 2
  omega

/-- The buffer goes back to the pool. -/
theorem Playing.giveBack (h : Playing s 1) : Playing { s with pool := s.pool + 1 } 0 := by
  refine ⟨h.told, h.failed, h.creates, h.opened, h.allocated, ?_⟩
  have hbuffers := h.buffers
  change s.pool + 1 + s.inFlight + 0 = 2
  omega

theorem readSamples_inv (hlog : Truthful s) (h : Playing s 1) (hthread : s.thread = .reading)
    (hok : Stores s choice) (hs : s.readSamples choice = some s') : Inv s' := by
  unfold State.readSamples at hs
  split at hs
  · cases hs
    exact ⟨⟨h.told, h.failed, h.creates, h.opened, h.allocated, h.buffers⟩, hlog⟩
  · cases hs
    have hback := h.giveBack
    exact ⟨⟨hback.told, hback.failed, hback.creates, hback.opened, hback.allocated,
      hback.buffers⟩, hlog⟩
  · cases hs
    exact Inv.fail hlog (hok.told hthread rfl) nofun
  · cases hs

theorem writeSamples_inv (hlog : Truthful s) (h : Playing s 1) (hthread : s.thread = .writing)
    (hok : Stores s choice) (hs : s.writeSamples choice = some s') : Inv s' := by
  refine call_inv hs ⟨⟨h.told, h.failed, h.creates, h.opened, h.allocated, ?_⟩, hlog⟩ ?_
  · have hbuffers := h.buffers
    change s.pool + (s.inFlight + 1) + 0 = 2
    omega
  · rintro ec rfl hec
    exact Inv.fail hlog (hok.told hthread rfl) hec

/-! ## The end of a file -/

theorem finish_inv {causes : List ErrorCode} (hlog : Truthful s) (h : Drained s)
    (hclean : ec = .success → s.errors = [])
    (htold : ec ≠ .success → ec ≠ .requestRateLimited →
      (GoesOn s → s.errToReport ∈ causes) ∧ .success ∉ causes) :
    Inv (s.finish ec causes) := by
  unfold State.finish
  split_ifs with hsuccess hlimited
  · exact ⟨⟨⟨⟨h.told, h.failed, h.creates, h.opened, h.allocated, h.buffers⟩, h.answered⟩,
      hclean hsuccess⟩, hlog⟩
  · exact ⟨⟨h.told, h.failed, h.creates, h.opened, h.allocated, h.buffers⟩, hlog⟩
  · obtain ⟨hcauses, hfailed⟩ := htold hsuccess hlimited
    exact Inv.failFor hlog hcauses hfailed

/-- It returns the error that it finds in `errToReport_`. -/
theorem finish_errToReport_inv (hlog : Truthful s) (h : Drained s) :
    Inv (s.finish s.errToReport s.errors) :=
  finish_inv hlog h h.errors_eq fun htold _ => ⟨fun _ => h.mem_errors htold, h.failed⟩

theorem endAnswerWait_inv (hlog : Truthful s) (h : Playing s 0)
    (hthread : s.thread = .waitingForAnswers) (hok : Stores s choice)
    (hs : s.endAnswerWait choice = some s') : Inv s' := by
  unfold State.endAnswerWait at hs
  split at hs
  · split_ifs at hs with hssr <;> cases hs
    · refine Inv.interrupted hlog nofun fun hgoes => ?_
      rw [hgoes.1] at hssr
      cases hssr
    · exact ⟨⟨h.told, h.failed, h.creates, h.opened, h.allocated, h.buffers⟩, hlog⟩
  · cases hs
    exact Inv.fail hlog (hok.told hthread rfl) nofun
  all_goals cases hs

theorem finalize_inv (hlog : Truthful s) (h : Drained s) : Inv s.finalize := by
  unfold State.finalize
  split_ifs with htold
  · exact ⟨⟨⟨⟨h.told, h.failed, h.creates, h.opened, h.allocated, h.buffers⟩, h.answered⟩,
      h.errors_eq htold.1⟩, hlog⟩
  · exact finish_inv hlog h (fun _ => h.errors_eq htold.1) fun hne => absurd rfl hne
  · exact ⟨⟨⟨h.told, h.failed, h.creates, h.opened, h.allocated, h.buffers⟩, h.answered⟩, hlog⟩

theorem resend_inv (hlog : Truthful s) (h : Drained s) : Inv s.resend := by
  unfold State.resend
  split_ifs with htold
  · exact finish_errToReport_inv hlog h
  · exact finish_inv hlog h nofun fun _ hne => absurd rfl hne
  · exact finish_inv hlog h (fun _ => h.errors_eq (not_not.mp htold)) fun hne => absurd rfl hne

theorem stopAudio_inv (hlog : Truthful s) (h : Clean s) (hthread : s.thread = .stopping)
    (hok : Stores s choice) (hs : s.stopAudio choice = some s') : Inv s' := by
  have hdrained : Drained { s with isStopAudioReady := false, isStopResponseReady := false } :=
    ⟨⟨h.told, h.failed, h.creates, h.opened, h.allocated, h.buffers⟩, h.answered⟩
  unfold State.stopAudio at hs
  dsimp only at hs
  refine call_inv hs ⟨⟨⟨⟨h.told, h.failed, h.creates, h.opened, h.allocated, h.buffers⟩,
    h.answered⟩, fun _ => h.clean⟩, hlog⟩ ?_
  rintro ec rfl hec
  refine finish_inv hlog hdrained (fun hsuccess => absurd hsuccess hec) fun _ hlimited => ?_
  exact ⟨fun hgoes => List.mem_singleton.mpr (hok.told hthread (if_neg hlimited) hgoes),
    fun hmem => hec (List.mem_singleton.mp hmem).symm⟩

theorem endStop_inv (hlog : Truthful s) (h : Drained s) (hthread : s.thread = .waitingForStop)
    (hok : Stores s choice) (hs : s.endStop choice = some s') : Inv s' := by
  refine wait_inv hs (fun _ _ => ?_) (fun ec hec hover => Inv.interrupted hlog hec hover) ?_
  · split_ifs with htold
    · exact finish_errToReport_inv hlog h
    · exact ⟨⟨⟨⟨h.told, h.failed, h.creates, h.opened, h.allocated, h.buffers⟩, h.answered⟩,
        h.errors_eq (not_not.mp htold)⟩, hlog⟩
  · rintro rfl hgoes
    exact Inv.fail hlog (hok.told hthread rfl) nofun

theorem endDrain_inv (hlog : Truthful s) (h : Clean s) (hthread : s.thread = .draining)
    (hok : Stores s choice)
    (hs : s.wait s.isStopAudioReady (s.finish .success []) s.fail choice = some s') : Inv s' := by
  refine wait_inv hs (fun _ _ => ?_) (fun ec hec hover => Inv.interrupted hlog hec hover) ?_
  · exact finish_inv hlog h.toDrained (fun _ => h.clean) fun hne => absurd rfl hne
  · rintro rfl hgoes
    exact Inv.fail hlog (hok.told hthread rfl) nofun

/-! ## The playlist -/

/-- Between two files nothing changes that concerns errors. -/
theorem Between.congr (h : Between s) (herrors : s'.errors = []) (hflight : s'.inFlight = s.inFlight)
    (htold : s'.errToReport = s.errToReport) (hcreates : s'.creates = s.creates)
    (hopened : s'.isStreamOpened = s.isStreamOpened) (hpool : s'.pool = s.pool)
    (hallocated : s'.buffersAllocated = s.buffersAllocated) : Between s' := by
  refine ⟨⟨herrors, hflight.trans h.inFlight⟩, htold.trans h.told, hcreates.trans h.creates, ?_⟩
  rw [hopened, hpool, hallocated]
  exact h.buffers

/-- A file can be played on the stream that is open. -/
theorem Between.playing (h : Between s) (hopened : s.isStreamOpened = true) : Playing s 0 := by
  have hbuffers := h.buffers
  rw [if_pos hopened] at hbuffers
  refine ⟨Or.inl ⟨h.clean, h.told⟩, ?_, h.creates, hopened, hbuffers.2, ?_⟩
  · rw [h.clean]
    exact List.not_mem_nil
  · rw [hbuffers.1, h.inFlight]

/-- After a file the stream is open, and all its buffers are back. -/
theorem Clean.between (h : Clean s) : Between s := by
  refine ⟨⟨h.clean, h.answered⟩, ?_, h.creates, ?_⟩
  · rcases h.told with ⟨-, htold⟩ | hmem
    · exact htold
    · rw [h.clean] at hmem
      exact absurd hmem List.not_mem_nil
  · have hbuffers := h.buffers
    rw [h.answered] at hbuffers
    rw [if_pos h.opened]
    exact ⟨hbuffers, h.allocated⟩

theorem again_inv (hlog : Truthful s) (h : Between s) (hopened : s.isStreamOpened = true) :
    Inv (s.again choice) := by
  unfold State.again
  split
  · exact Inv.failStored hlog nofun
  · have hplaying := h.playing hopened
    exact ⟨⟨Or.inl ⟨rfl, h.told⟩, List.not_mem_nil, hplaying.creates, hopened,
      hplaying.allocated, hplaying.buffers⟩, hlog⟩

theorem first_inv (hlog : Truthful s) (h : Between s) : Inv s.first :=
  ⟨h.congr h.clean rfl rfl rfl rfl rfl rfl, hlog⟩

theorem selectFile_inv (hlog : Truthful s) (h : Between s)
    (hopened : s.isFileOpened = true ∨ s.numTimesFilePlayed ≠ 0 → s.isStreamOpened = true) :
    Inv (s.selectFile choice) := by
  have hbetween : ∀ cfg, Between { s with curPbCfg := cfg } := fun cfg =>
    h.congr h.clean rfl rfl rfl rfl rfl rfl
  unfold State.selectFile
  split
  · exact ⟨h.congr h.clean rfl rfl rfl rfl rfl rfl, hlog⟩
  · rename_i cfg _
    dsimp only
    split
    · split_ifs with hcount hnone hmore
      · exact ⟨⟨h.congr h.clean rfl rfl rfl rfl rfl rfl, hopened⟩, hlog⟩
      · exact first_inv hlog (hbetween cfg)
      · exact again_inv hlog (hbetween cfg) (hopened (Or.inr hnone))
      · exact ⟨⟨h.congr h.clean rfl rfl rfl rfl rfl rfl, hopened (Or.inr hnone)⟩, hlog⟩
    · exact ⟨⟨h.congr h.clean rfl rfl rfl rfl rfl rfl, hopened⟩, hlog⟩
    · split_ifs with hfile
      · exact again_inv hlog (hbetween cfg) (hopened (Or.inl hfile))
      · exact first_inv hlog (hbetween cfg)

theorem initFileToPlay_inv (hlog : Truthful s) (h : Between s) : Inv (s.initFileToPlay choice) := by
  unfold State.initFileToPlay
  split_ifs
  · exact Inv.failStored hlog nofun
  · split
    · exact Inv.failStored hlog nofun
    · exact ⟨h.congr rfl rfl rfl rfl rfl rfl rfl, hlog⟩

theorem reinitAudioStream_inv (hlog : Truthful s) (h : Between s) : Inv s.reinitAudioStream := by
  have hbuffers := h.buffers
  unfold State.reinitAudioStream
  dsimp only
  split_ifs with hopened
  · have hplaying := h.playing hopened
    exact ⟨⟨hplaying.told, hplaying.failed, hplaying.creates, hopened, hplaying.allocated,
      hplaying.buffers⟩, hlog⟩
  · exact ⟨⟨⟨h.clean, h.inFlight⟩, h.creates⟩, hlog⟩
  · rw [if_neg hopened] at hbuffers
    exact ⟨⟨⟨h.clean, h.inFlight⟩, hbuffers, h.creates⟩, hlog⟩

theorem reportPlayed_inv (hlog : Truthful s) (h : Clean s) : Inv s.reportPlayed := by
  refine ⟨⟨h.between.congr h.clean rfl rfl rfl rfl rfl rfl, fun _ => h.opened⟩, ?_⟩
  intro r hr
  rcases List.mem_append.mp hr with hold | hnew
  · exact hlog r hold
  · rw [List.mem_singleton.mp hnew]
    exact h.clean

theorem reportError_inv (hlog : Truthful s)
    (htold : s.errToReport ∈ s.causes ∧ .success ∉ s.causes) : Inv s.reportError := by
  refine ⟨trivial, ?_⟩
  intro r hr
  rcases List.mem_append.mp hr with hold | hnew
  · exact hlog r hold
  · rw [List.mem_singleton.mp hnew]
    exact ⟨htold.1, fun hsuccess => htold.2 (hsuccess ▸ htold.1)⟩

theorem executePlayback_inv {nextState : PlayerState} (h : Inv s)
    (hthread : s.thread = .turn nextState)
    (hs : s.executePlayback nextState choice = some s') : Inv s' := by
  have hphase := h.phase
  rw [Phase, hthread] at hphase
  cases nextState with
  | initPlayer =>
    obtain ⟨hbetween, hclosed, hnone⟩ := hphase
    refine call_inv hs ⟨⟨hbetween.congr hbetween.clean rfl rfl rfl rfl rfl rfl, ?_⟩, h.log⟩
      fun ec _ hec => Inv.failStored h.log hec
    rintro (hopen | hplayed)
    · exact absurd (hclosed.symm.trans hopen) nofun
    · exact absurd hnone hplayed
  | selectFile =>
    cases hs
    exact selectFile_inv h.log hphase.1 hphase.2
  | initFile =>
    cases hs
    exact initFileToPlay_inv h.log hphase
  | reinitStream =>
    cases hs
    exact reinitAudioStream_inv h.log hphase
  | playSamples =>
    cases hs
    split_ifs with hpool
    · exact ⟨⟨hphase.told, hphase.failed, hphase.creates, hphase.opened, hphase.allocated,
        hphase.buffers⟩, h.log⟩
    · exact fill_inv h.log hphase hpool
  | filePlayEnd =>
    cases hs
    exact ⟨⟨hphase.told, hphase.failed, hphase.creates, hphase.opened, hphase.allocated,
      hphase.buffers⟩, h.log⟩
  | reportPlayed =>
    cases hs
    exact reportPlayed_inv h.log hphase
  | deinitFile =>
    obtain ⟨hbetween, hopened⟩ := hphase
    cases hs
    split_ifs
    · exact ⟨⟨hbetween.congr hbetween.clean rfl rfl rfl rfl rfl rfl, fun _ => hopened⟩, h.log⟩
    · exact ⟨⟨hbetween.congr hbetween.clean rfl rfl rfl rfl rfl rfl, fun _ => hopened⟩, h.log⟩
  | reportFinish =>
    cases hs
    split_ifs
    · exact ⟨hphase.congr hphase.clean rfl rfl rfl rfl rfl rfl, h.log⟩
    · exact ⟨trivial, h.log⟩
  | reportError =>
    cases hs
    exact reportError_inv h.log hphase
  | terminate =>
    cases hs
    exact ⟨trivial, h.log⟩

/-! ## What concerns no error -/

/-- The two states agree on what is known of errors, but for where the thread is and whether the
session goes on. -/
structure Same (s s' : State) : Prop where
  errors : s'.errors = s.errors
  inFlight : s'.inFlight = s.inFlight
  errToReport : s'.errToReport = s.errToReport
  creates : s'.creates = s.creates
  isStreamOpened : s'.isStreamOpened = s.isStreamOpened
  pool : s'.pool = s.pool
  buffersAllocated : s'.buffersAllocated = s.buffersAllocated
  isCreateResponseReady : s'.isCreateResponseReady = s.isCreateResponseReady
  createResult : s'.createResult = s.createResult
  isFileOpened : s'.isFileOpened = s.isFileOpened
  numTimesFilePlayed : s'.numTimesFilePlayed = s.numTimesFilePlayed
  causes : s'.causes = s.causes
  log : s'.log = s.log

theorem Quiet.same (h : Quiet s) (hsame : Same s s') : Quiet s' :=
  ⟨hsame.errors.trans h.clean, hsame.inFlight.trans h.inFlight⟩

theorem Between.same (h : Between s) (hsame : Same s s') : Between s' :=
  h.congr (hsame.errors.trans h.clean) hsame.inFlight hsame.errToReport hsame.creates
    hsame.isStreamOpened hsame.pool hsame.buffersAllocated

theorem Playing.same {taken : ℕ} (h : Playing s taken) (hsame : Same s s') : Playing s' taken := by
  refine ⟨?_, ?_, hsame.creates.trans h.creates, hsame.isStreamOpened.trans h.opened,
    hsame.buffersAllocated.trans h.allocated, ?_⟩
  · rw [hsame.errors, hsame.errToReport]
    exact h.told
  · rw [hsame.errors]
    exact h.failed
  · rw [hsame.pool, hsame.inFlight]
    exact h.buffers

theorem Drained.same (h : Drained s) (hsame : Same s s') : Drained s' :=
  ⟨h.toPlaying.same hsame, hsame.inFlight.trans h.answered⟩

theorem Clean.same (h : Clean s) (hsame : Same s s') : Clean s' :=
  ⟨h.toDrained.same hsame, hsame.errors.trans h.clean⟩

theorem Pending.same {causes : List ErrorCode} (h : Pending s causes) (hsame : Same s s')
    (hgoes : GoesOn s' → GoesOn s ∨ s.errToReport ∈ causes) : Pending s' causes := by
  refine ⟨fun hon => ?_, h.failed⟩
  rw [hsame.errToReport]
  exact (hgoes hon).elim h.told id

/-- A code that is where it belongs may go on to be reported. -/
theorem Phase.same (h : Phase s) (hsame : Same s s') (hthread : s'.thread = s.thread)
    (hstop : s.thread = .waitingForStop → s.isStopResponseReady = true →
      s'.isStopResponseReady = true)
    (hgoes : GoesOn s' → GoesOn s ∨ ∀ causes ∈ pending s, s.errToReport ∈ causes) : Phase s' := by
  have hpending : ∀ causes, pending s = some causes → Pending s causes → Pending s' causes :=
    fun causes hcauses hold => hold.same hsame fun hon => (hgoes hon).imp id (· causes hcauses)
  have hfresh : s.thread = .waitingForStop → (s.isStopResponseReady = false → s.errors = []) →
      s'.isStopResponseReady = false → s'.errors = [] := by
    intro hwaiting hold hready
    rw [hsame.errors]
    refine hold (Bool.eq_false_iff.mpr fun hwas => ?_)
    rw [hstop hwaiting hwas] at hready
    cases hready
  obtain ⟨thread, hwas⟩ : ∃ thread, s.thread = thread := ⟨_, rfl⟩
  simp only [Phase, pending, hthread, hwas, hsame.causes, hsame.errToReport, hsame.isFileOpened,
    hsame.numTimesFilePlayed, hsame.isStreamOpened, hsame.pool, hsame.creates,
    hsame.isCreateResponseReady, hsame.createResult] at h hpending hfresh ⊢
  cases thread
  case loop nextState | turn nextState => cases nextState <;> first
    | exact h.same hsame
    | exact ⟨h.1.same hsame, h.2⟩
    | exact hpending _ rfl h
    | exact h
  case closing next | deleting next => cases next with
    | reopening => exact ⟨h.1.same hsame, h.2⟩
    | failing ec => exact hpending _ rfl h
  case waitingForStop => exact ⟨h.1.same hsame, hfresh rfl h.2⟩
  all_goals first
    | exact h.same hsame
    | exact ⟨h.1.same hsame, h.2⟩
    | exact trivial

theorem Inv.same (h : Inv s) (hsame : Same s s') (hthread : s'.thread = s.thread)
    (hstop : s.thread = .waitingForStop → s.isStopResponseReady = true →
      s'.isStopResponseReady = true)
    (hgoes : GoesOn s' → GoesOn s ∨ ∀ causes ∈ pending s, s.errToReport ∈ causes) : Inv s' := by
  refine ⟨h.phase.same hsame hthread hstop hgoes, ?_⟩
  rw [Truthful, hsame.log]
  exact h.log

/-! ## The player thread -/

/-- The loop is left, or the turn begins with what was known; an error is now one that is told. -/
theorem loop_inv {nextState : PlayerState} (h : Inv s) (hthread : s.thread = .loop nextState) :
    Inv { s with
      thread := if !s.hasUserRequestedStop && !s.hasSsrOccurred then .turn nextState
        else .ended } := by
  have hphase := h.phase
  split_ifs with hgoes
  · have hsame : Same s { s with thread := .turn nextState } :=
      ⟨rfl, rfl, rfl, rfl, rfl, rfl, rfl, rfl, rfl, rfl, rfl, rfl, rfl⟩
    simp only [Bool.and_eq_true, Bool.not_eq_true'] at hgoes
    refine ⟨?_, h.log⟩
    rw [Phase, hthread] at hphase
    cases nextState with
    | reportError => exact ⟨hphase.told hgoes.symm, hphase.failed⟩
    | terminate => exact trivial
    | initPlayer | selectFile | deinitFile => exact ⟨hphase.1.same hsame, hphase.2⟩
    | _ => exact hphase.same hsame
  · exact ⟨trivial, h.log⟩

/-- The pool is full when the answers are all there. -/
theorem countBuffers_inv (hlog : Truthful s) (h : Playing s 0) :
    Inv { s with
      thread := if s.buffersAllocated && s.pool != 2 then .waitingForAnswers
        else .finalizing } := by
  split_ifs with hout
  · exact ⟨⟨h.told, h.failed, h.creates, h.opened, h.allocated, h.buffers⟩, hlog⟩
  · have hbuffers := h.buffers
    rw [h.allocated, Bool.true_and, bne_iff_ne, not_not] at hout
    have hanswered : s.inFlight = 0 := by omega
    exact ⟨⟨⟨h.told, h.failed, h.creates, h.opened, h.allocated, h.buffers⟩, hanswered⟩, hlog⟩

theorem configure_inv (h : Inv s) (hthread : s.thread = .configuring) (hok : Stores s choice)
    (hs : State.call { s with thread := .preparingBuffers } s.fail choice = some s') : Inv s' := by
  have hphase := h.phase
  rw [Phase, hthread] at hphase
  obtain ⟨hquiet, hrest⟩ := hphase
  refine call_inv hs ⟨⟨⟨hquiet.clean, hquiet.inFlight⟩, hrest⟩, h.log⟩ ?_
  rintro ec rfl hec
  exact Inv.fail h.log (hok.told hthread rfl) hec

theorem register_inv (h : Inv s) (hthread : s.thread = .registering) (hok : Stores s choice)
    (hs : State.call (s.go .playSamples) (fun ec => { s with thread := .closing (.failing ec) })
      choice = some s') : Inv s' := by
  have hphase := h.phase
  rw [Phase, hthread] at hphase
  have hplaying := hphase.1.playing hphase.2
  refine call_inv hs ⟨⟨hplaying.told, hplaying.failed, hplaying.creates, hplaying.opened,
    hplaying.allocated, hplaying.buffers⟩, h.log⟩ ?_
  rintro ec rfl hec
  exact ⟨⟨fun hgoes => List.mem_singleton.mpr (hok.told hthread rfl hgoes),
    fun hmem => hec (List.mem_singleton.mp hmem).symm⟩, h.log⟩

theorem testEof_inv (hlog : Truthful s) (h : Playing s 0) (hs : s.testEof choice = some s') :
    Inv s' := by
  unfold State.testEof at hs
  split at hs
  · cases hs
    exact ⟨⟨h.told, h.failed, h.creates, h.opened, h.allocated, h.buffers⟩, hlog⟩
  · cases hs
    exact ⟨⟨h.told, h.failed, h.creates, h.opened, h.allocated, h.buffers⟩, hlog⟩
  all_goals cases hs

/-- One case for each place where the player thread may be. -/
theorem advance_inv (h : Inv s) (hok : Stores s choice) (hs : s.advance choice = some s') :
    Inv s' := by
  have hlog := h.log
  have hphase := h.phase
  obtain ⟨thread, hthread⟩ : ∃ thread, s.thread = thread := ⟨_, rfl⟩
  rw [Phase, hthread] at hphase
  rw [State.advance, hthread] at hs
  cases thread with
  | loop nextState =>
    cases hs
    exact loop_inv h hthread
  | turn nextState => exact executePlayback_inv h hthread hs
  | closing next => exact deinitAudioStream_inv h hthread hs
  | deleting next => exact endDelete_inv h hthread hs
  | opening => exact initAudioStream_inv h hthread hok hs
  | creating => exact endCreate_inv h hthread hok hs
  | configuring => exact configure_inv h hthread hok hs
  | preparingBuffers => exact prepareBuffers_inv h hthread hok hs
  | registering => exact register_inv h hthread hok hs
  | waitingForBuffer => exact endBufferWait_inv hlog hphase hs
  | waitingForAdsp => exact endAdspWait_inv hlog hphase.1 hphase.2 hs
  | reading => exact readSamples_inv hlog hphase hthread hok hs
  | writing => exact writeSamples_inv hlog hphase hthread hok hs
  | testingEof => exact testEof_inv hlog hphase hs
  | countingBuffers =>
    cases hs
    exact countBuffers_inv hlog hphase
  | waitingForAnswers => exact endAnswerWait_inv hlog hphase hthread hok hs
  | finalizing =>
    cases hs
    exact finalize_inv hlog hphase
  | resending =>
    cases hs
    exact resend_inv hlog hphase
  | stopping => exact stopAudio_inv hlog hphase hthread hok hs
  | waitingForStop => exact endStop_inv hlog hphase.1 hthread hok hs
  | draining => exact endDrain_inv hlog hphase hthread hok hs
  | ended => cases hs

/-! ## Answers -/

/-- Nothing is known, or needed, any more. -/
theorem phase_of_isOver (hover : isOver s = true) : Phase s := by
  simp only [isOver, decide_eq_true_eq] at hover
  rcases hover with hthread | hthread | hthread <;> simp only [Phase, hthread]

/-- The error of an answer is added to those of the repetition; a success finds none there. -/
theorem Playing.answer {taken : ℕ} {errors : List ErrorCode} (h : Playing s taken)
    (hec : ec = .success → s.errors = []) (hsuccess : ec = .success → errors = s.errors)
    (hfail : ec ≠ .success → errors = s.errors ++ [ec]) :
    (errors = [] ∧ ec = .success ∨ ec ∈ errors) ∧ .success ∉ errors := by
  by_cases heq : ec = .success
  · rw [hsuccess heq]
    exact ⟨Or.inl ⟨hec heq, heq⟩, h.failed⟩
  · rw [hfail heq]
    refine ⟨Or.inr (List.mem_append_right _ (List.mem_singleton_self ec)), fun hmem => ?_⟩
    rcases List.mem_append.mp hmem with hold | hnew
    · exact h.failed hold
    · exact heq (List.mem_singleton.mp hnew).symm

/-- A success that is there already finds no error. -/
theorem Playing.errors_of_eq {taken : ℕ} (h : Playing s taken) (hec : ec = s.errToReport) :
    ec = .success → s.errors = [] :=
  fun hsuccess => h.errors_eq (hec.symm.trans hsuccess)

/-- While an error is on its way to the report, only it is known. -/
theorem Phase.stored {causes : List ErrorCode} (h : Phase s) (hpending : pending s = some causes)
    (hthread : s'.thread = s.thread) (htold : s'.errToReport = s.errToReport)
    (hcauses : s'.causes = s.causes) (hgoes : GoesOn s' → GoesOn s) : Phase s' := by
  have hold : ∀ causes, Pending s causes → Pending s' causes := fun causes hwas =>
    ⟨fun hon => htold ▸ hwas.told (hgoes hon), hwas.failed⟩
  obtain ⟨thread, hwas⟩ : ∃ thread, s.thread = thread := ⟨_, rfl⟩
  simp only [Phase, pending, hthread, hwas, htold, hcauses] at h hpending ⊢
  cases thread
  case loop nextState | turn nextState => cases nextState <;> first
    | exact hold _ h
    | exact h
    | cases hpending
  case closing next | deleting next => cases next with
    | reopening => cases hpending
    | failing ec => exact hold _ h
  all_goals cases hpending

/-- A creation is only awaited before the file is played. -/
theorem Phase.creates_eq (h : Phase s) (hover : ¬ isOver s = true) (hpending : pending s = none)
    (hthread : s.thread ≠ .creating) : s.creates = 0 := by
  obtain ⟨thread, hwas⟩ : ∃ thread, s.thread = thread := ⟨_, rfl⟩
  simp only [Phase, pending, isOver, hwas] at h hpending hover hthread
  cases thread
  case loop nextState | turn nextState => cases nextState <;> first
    | exact h.creates
    | exact h.1.creates
    | exact absurd rfl hpending
    | exact absurd rfl hover
    | cases hpending
  case closing next | deleting next => cases next with
    | reopening => exact h.2
    | failing ec => cases hpending
  case creating => exact absurd rfl hthread
  case ended => exact absurd rfl hover
  case opening => exact h.2.2
  case configuring | preparingBuffers => exact h.2.2.1
  all_goals first
    | exact h.creates
    | exact h.1.creates

theorem createStreamComplete_inv {result : ErrorCode} (h : Inv s)
    (hok : isOver s = true ∨ s.thread = .creating ∨ result = s.errToReport)
    (hs : s.createStreamComplete result = some s') : Inv s' := by
  have hphase := h.phase
  unfold State.createStreamComplete at hs
  split_ifs at hs with hcreates
  cases hs
  refine ⟨?_, h.log⟩
  by_cases hover : isOver s = true
  · exact phase_of_isOver hover
  by_cases hthread : s.thread = .creating
  · simp only [Phase, hthread] at hphase ⊢
    obtain ⟨hquiet, hpool, hanswer⟩ := hphase
    refine ⟨⟨hquiet.clean, hquiet.inFlight⟩, hpool, ?_⟩
    split_ifs at hanswer
    · exact absurd hanswer.1 hcreates
    · refine ⟨by omega, trivial, ?_⟩
      rintro rfl
      exact Bool.or_true _
  · have hresult : result = s.errToReport :=
      (hok.resolve_left hover).resolve_left hthread
    cases hpending : pending s with
    | none => exact absurd (hphase.creates_eq hover hpending hthread) hcreates
    | some causes => exact hphase.stored hpending rfl hresult rfl id

theorem deleteStreamComplete_inv {result : ErrorCode} (h : Inv s)
    (hok : isOver s = true ∨ s.thread = .deleting .reopening ∨ result = s.errToReport)
    (hs : s.deleteStreamComplete result = some s') : Inv s' := by
  unfold State.deleteStreamComplete at hs
  split_ifs at hs
  cases hs
  rcases hok with hover | hthread | rfl
  · exact ⟨phase_of_isOver hover, h.log⟩
  · have hphase := h.phase
    simp only [Phase, hthread] at hphase
    refine ⟨?_, h.log⟩
    simp only [Phase, hthread]
    exact ⟨⟨hphase.1.clean, hphase.1.inFlight⟩, hphase.2⟩
  · exact h.same ⟨rfl, rfl, rfl, rfl, rfl, rfl, rfl, rfl, rfl, rfl, rfl, rfl, rfl⟩ rfl (fun _ => id)
      Or.inl

theorem stopAudioComplete_inv {result : ErrorCode} (h : Inv s)
    (hok : isOver s = true ∨ s.thread = .waitingForStop ∧ s.isStopResponseReady = false ∨
      result = s.errToReport)
    (hs : s.stopAudioComplete result = some s') : Inv s' := by
  have hphase := h.phase
  unfold State.stopAudioComplete at hs
  split at hs
  · cases hs
  cases hs
  by_cases hthread : s.thread = .waitingForStop
  · simp only [Phase, hthread] at hphase
    obtain ⟨hdrained, hclean⟩ := hphase
    have hresult : result = .success → s.errors = [] := by
      rcases hok with hover | ⟨-, hready⟩ | htold
      · simp [isOver, hthread] at hover
      · exact fun _ => hclean hready
      · exact hdrained.errors_of_eq htold
    have hanswer := @Playing.answer s result 0
      (if s.thread = .waitingForStop ∧ result ≠ .success then s.errors ++ [result] else s.errors)
      hdrained.toPlaying hresult (fun heq => if_neg fun hboth => hboth.2 heq)
      (fun hne => if_pos ⟨hthread, hne⟩)
    refine ⟨?_, h.log⟩
    rw [hthread] at hanswer
    dsimp only [Phase]
    rw [hthread]
    exact ⟨⟨⟨hanswer.1, hanswer.2, hdrained.creates, hdrained.opened, hdrained.allocated,
      hdrained.buffers⟩, hdrained.answered⟩, nofun⟩
  · rcases hok with hover | ⟨hwaiting, -⟩ | rfl
    · exact ⟨phase_of_isOver hover, h.log⟩
    · exact absurd hwaiting hthread
    · exact h.same ⟨if_neg fun hboth => hthread hboth.1, rfl, rfl, rfl, rfl, rfl, rfl, rfl, rfl,
        rfl, rfl, rfl, rfl⟩ rfl (fun hwaiting => absurd hwaiting hthread) Or.inl

/-- The file goes on to be played, with one more buffer in the pool. -/
theorem Phase.answered (h : Phase s) (hflight : s.inFlight ≠ 0) (hthread : s'.thread = s.thread)
    (hpool : s'.pool = s.pool + 1) (hplaying : Playing s 0 → Playing s' 0)
    (hover : ¬ isOver s = true) (hpending : pending s = none) (hlocked : ¬ s.locked = true) :
    Phase s' := by
  obtain ⟨thread, hwas⟩ : ∃ thread, s.thread = thread := ⟨_, rfl⟩
  simp only [Phase, pending, isOver, State.locked, hthread, hwas] at h hpending hover hlocked ⊢
  cases thread
  case loop nextState | turn nextState => cases nextState <;> first
    | exact hplaying h
    | exact absurd h.inFlight hflight
    | exact absurd h.1.inFlight hflight
    | exact absurd h.answered hflight
    | exact absurd rfl hover
    | cases hpending
  case closing next | deleting next => cases next with
    | reopening => exact absurd h.1.inFlight hflight
    | failing ec => cases hpending
  case ended => exact absurd rfl hover
  case reading | writing => exact absurd rfl hlocked
  case waitingForAdsp => exact ⟨hplaying h.1, by omega⟩
  all_goals first
    | exact hplaying h
    | exact absurd h.inFlight hflight
    | exact absurd h.1.inFlight hflight
    | exact absurd h.answered hflight
    | exact absurd h.1.answered hflight

theorem writeComplete_inv {full : Bool} (h : Inv s)
    (hok : isOver s = true ∨ ec = s.errToReport ∨
      pending s = none ∧ (s.errors ≠ [] → ec ≠ .success))
    (hs : s.writeComplete full ec = some s') : Inv s' := by
  unfold State.writeComplete at hs
  split at hs
  · cases hs
  rename_i hout
  obtain ⟨hflight, hlocked⟩ := not_or.mp hout
  cases hs
  refine ⟨?_, h.log⟩
  by_cases hover : isOver s = true
  · exact phase_of_isOver hover
  have htold := hok.resolve_left hover
  cases hpending : pending s with
  | none =>
    refine h.phase.answered hflight rfl rfl (fun hplaying => ?_) hover hpending hlocked
    have hec : ec = .success → s.errors = [] := by
      rcases htold with htold | ⟨-, hnone⟩
      · exact hplaying.errors_of_eq htold
      · exact fun hsuccess => by_contra fun herrors => hnone herrors hsuccess
    have hanswer := @Playing.answer s ec 0
      (if ec = .success then s.errors else s.errors ++ [ec]) hplaying hec
      (fun heq => if_pos heq) (fun hne => if_neg hne)
    refine ⟨hanswer.1, hanswer.2, hplaying.creates, hplaying.opened, hplaying.allocated, ?_⟩
    have hbuffers := hplaying.buffers
    change s.pool + 1 + (s.inFlight - 1) + 0 = 2
    omega
  | some causes =>
    refine h.phase.stored hpending rfl (htold.resolve_right fun hnone => ?_) rfl id
    rw [hnone.1] at hpending
    cases hpending

/-- A service that is back makes the session go on, after an error that is told. -/
theorem onServiceStatusChange_inv {available : Bool} (h : Inv s)
    (hok : available = true → s.hasSsrOccurred = true →
      ∀ causes ∈ pending s, s.errToReport ∈ causes) :
    Inv { s with hasSsrOccurred := !available } := by
  refine h.same ⟨rfl, rfl, rfl, rfl, rfl, rfl, rfl, rfl, rfl, rfl, rfl, rfl, rfl⟩ rfl
    (fun _ => id) ?_
  rintro ⟨hssr, hstop⟩
  cases available with
  | false => cases hssr
  | true =>
    cases hwas : s.hasSsrOccurred with
    | false => exact Or.inl ⟨hwas, hstop⟩
    | true => exact Or.inr (hok rfl hwas)

/-! ## Runs -/

theorem step_inv {e : Step} (h : Inv s) (hok : Told s e) (hs : step s e = some s') : Inv s' := by
  cases e with
  | player choice => exact advance_inv h hok hs
  | createStreamComplete result => exact createStreamComplete_inv h hok hs
  | deleteStreamComplete result => exact deleteStreamComplete_inv h hok hs
  | stopAudioComplete result => exact stopAudioComplete_inv h hok hs
  | writeComplete full ec => exact writeComplete_inv h hok hs
  | onReadyForWrite | onPlayStopped =>
    simp only [step] at hs
    split at hs
    · cases hs
    · cases hs
      exact h.same ⟨rfl, rfl, rfl, rfl, rfl, rfl, rfl, rfl, rfl, rfl, rfl, rfl, rfl⟩ rfl
        (fun _ => id) Or.inl
  | stopPlayback =>
    cases hs
    exact h.same ⟨rfl, rfl, rfl, rfl, rfl, rfl, rfl, rfl, rfl, rfl, rfl, rfl, rfl⟩ rfl
      (fun _ => id) fun hgoes => absurd hgoes.2 nofun
  | onServiceStatusChange available =>
    cases hs
    exact onServiceStatusChange_inv h hok

theorem initial_inv (playbackConfigs : List Entries.PlaybackConfig) :
    Inv (initial playbackConfigs) :=
  ⟨⟨⟨⟨rfl, rfl⟩, rfl, rfl, rfl⟩, rfl, rfl⟩, nofun⟩

/-- When the code of every failure is in `errToReport_` and stays there, errors are reported
truthfully. -/
theorem reports_truthful {playbackConfigs : List Entries.PlaybackConfig}
    (h : Runs.Reachable step Told (initial playbackConfigs) s) : Truthful s :=
  (h.invariant (initial_inv playbackConfigs) fun _ _ _ hok hs hinv => step_inv hinv hok hs).log

/-- A PCM file. -/
def pcmFile : List Entries.PlaybackConfig :=
  [⟨⟨"a", ⟨.count, 1⟩⟩, ⟨.play, 8000, 1, .pcm16BitSigned, [1], none⟩⟩]

/-- Its only write is answered with an error at the end of the file. -/
theorem reports_truthful_of_write : ∃ s : State,
    s.log = [.error .systemErr [.systemErr] "a"] ∧ Truthful s := by
  obtain ⟨s, hs, hlog⟩ := Runs.exists_reachable_of_run step Told (initial pcmFile)
    (fun s => s.log) [.error .systemErr [.systemErr] "a"]
    (List.replicate 9 (.player .proceed) ++ [.createStreamComplete .success] ++
      List.replicate 10 (.player .proceed) ++ [.player .eof, .player .eof] ++
      List.replicate 2 (.player .proceed) ++ [.writeComplete true .systemErr] ++
      List.replicate 5 (.player .proceed))
    (by decide)
  exact ⟨s, hlog, reports_truthful hs⟩

/-- A stream that cannot be requested is reported as a success. -/
theorem success_reported :
    ∃ s, Runs.Reachable step Runs.anyStep (initial pcmFile) s ∧ ¬ Truthful s := by
  obtain ⟨s, hs, hlog⟩ := Runs.exists_reachable_of_run step Runs.anyStep (initial pcmFile)
    (fun s => s.log) [.error .success [.invalidState] "a"]
    (List.replicate 8 (.player .proceed) ++ [.player (.fails .invalidState)] ++
      List.replicate 2 (.player .proceed))
    (by decide)
  refine ⟨s, hs, fun h => ?_⟩
  have htruthful : Report.Truthful (.error .success [.invalidState] "a") :=
    h _ (hlog ▸ List.mem_cons_self)
  exact htruthful.2 rfl

end Errors

end Player

end SatComm
