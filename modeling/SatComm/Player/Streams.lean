import SatComm.Player.Samples

/-!
# The streams of a player

A session opens and closes audio streams. `createStream` and `deleteStream` are answered
asynchronously, and the player thread waits for the answer, but not beyond a time-out or a request
to stop: the answer of a creation sets the stream and the flag `isStreamOpened_` whenever it
arrives.

Of `executePlayback` only the calls are left that concern streams: `reinitAudioStream`, the end of
the playlist and `terminatePlayback`, which is all that follows an error. A stream is open from the
answer to its creation up to the answer to its deletion.
-/

namespace SatComm

namespace Player

namespace Streams

/-- What follows the call of `deinitAudioStream`. -/
inductive Next
  /-- `reinitAudioStream` opens the next stream. -/
  | reopening
  | failing
  | finishing
  | terminating
deriving DecidableEq, Repr

/-- Where the player thread is. -/
inductive Thread
  /-- No session runs. -/
  | idle
  | playing
  /-- `initAudioStream` waits for the answer to this request. -/
  | creating (request : Nat)
  /-- The stream is there; attributes, buffers and listeners are set up. -/
  | configuring
  /-- `deinitAudioStream` waits for the answer. -/
  | deleting (next : Next)
  /-- Before `TERMINATE`. -/
  | failing
deriving DecidableEq, Repr

structure State where
  thread : Thread
  hasUserRequestedStop : Bool
  isStreamOpened : Bool
  isCreateResponseReady : Bool
  isDeleteResponseReady : Bool
  errToReport : ErrorCode
  audioPlayStream : Option Nat
  /-- The number of requests so far. A stream has the number of the request for it. -/
  requests : Nat
  /-- The requests that are not answered. -/
  creates : List Nat
  deletes : List Nat
  /-- The streams whose creation succeeded, those that were passed to `deleteStream`, and those
  that are open. -/
  created : List Nat
  passed : List Nat
  opened : List Nat
deriving DecidableEq, Repr

def initial : State where
  thread := .idle
  hasUserRequestedStop := false
  isStreamOpened := false
  isCreateResponseReady := false
  isDeleteResponseReady := false
  errToReport := .success
  audioPlayStream := none
  requests := 0
  creates := []
  deletes := []
  created := []
  passed := []
  opened := []

/-- Whether the audio manager takes a call of `deleteStream` and one of `createStream`. -/
structure Calls where
  deleteStream : Bool
  createStream : Bool
deriving DecidableEq, Repr

/-- The next step of the player thread. -/
inductive Choice
  /-- The streams of two files in a row may have the same configuration. -/
  | reinitAudioStream (isStreamConfigurationSame : Bool) (calls : Calls)
  | reportFinish (calls : Calls)
  | terminatePlayback (calls : Calls)
  /-- The thread goes on after a wait, because of an answer or of a request to stop. -/
  | wake (calls : Calls)
  | timeout (calls : Calls)
  | configured
  /-- A cached attribute cannot be applied: the stream stays open. -/
  | attributeFails
  | buffersFail (calls : Calls)
deriving DecidableEq, Repr

namespace State

def resetState (s : State) : State :=
  { s with
    isStreamOpened := false
    hasUserRequestedStop := false
    isCreateResponseReady := false
    isDeleteResponseReady := false
    errToReport := .success }

def startPlayback (s : State) : State :=
  match s.thread with
  | .idle => { s.resetState with thread := .playing }
  | _ => s

/-- The player thread holds `playerMtx_` while it waits at the end of a session. -/
def stopPlayback (s : State) : Option State :=
  match s.thread with
  | .idle => some s
  | .deleting .finishing | .deleting .terminating => none
  | _ => some { s with hasUserRequestedStop := true }

/-- `initAudioStream` up to the wait. -/
def initAudioStream (s : State) (calls : Calls) : State :=
  let s := { s with isCreateResponseReady := false }
  if calls.createStream then
    { s with
      creates := s.creates ++ [s.requests]
      requests := s.requests + 1
      thread := .creating s.requests }
  else { s with thread := .failing }

/-- What follows the return of `deinitAudioStream`, whatever it returns. -/
def leave (s : State) (next : Next) (calls : Calls) : State :=
  match next with
  | .reopening => s.initAudioStream calls
  | .failing => { s with thread := .failing }
  | .finishing | .terminating => { s with hasUserRequestedStop := false, thread := .idle }

/-- `deinitAudioStream` up to the wait. -/
def deinitAudioStream (s : State) (next : Next) (calls : Calls) : State :=
  match s.isStreamOpened, s.audioPlayStream with
  | true, some stream =>
    let s := { s with isDeleteResponseReady := false, passed := s.passed ++ [stream] }
    if calls.deleteStream then { s with deletes := s.deletes ++ [stream], thread := .deleting next }
    else s.leave next calls
  | _, _ => s.leave next calls

/-- The end of the wait for a creation. -/
def endCreate (s : State) : State :=
  { s with
    thread := if s.hasUserRequestedStop || s.errToReport != .success then .failing
      else .configuring }

/-- The end of the wait for a deletion. -/
def endDelete (s : State) : State :=
  if s.hasUserRequestedStop || s.errToReport != .success then s
  else { s with isStreamOpened := false }

def advance (s : State) : Choice → Option State
  | .reinitAudioStream same calls =>
    if s.thread = .playing then
      some (if s.isStreamOpened then if same then s else s.deinitAudioStream .reopening calls
        else s.initAudioStream calls)
    else none
  | .reportFinish calls =>
    if s.thread = .playing ∧ s.hasUserRequestedStop = false then
      some (s.deinitAudioStream .finishing calls)
    else none
  | .terminatePlayback calls =>
    if s.thread = .playing ∨ s.thread = .failing then some (s.deinitAudioStream .terminating calls)
    else none
  | .wake calls =>
    match s.thread with
    | .creating _ =>
      if s.isCreateResponseReady || s.hasUserRequestedStop then some s.endCreate else none
    | .deleting next =>
      if s.isDeleteResponseReady || s.hasUserRequestedStop then some (s.endDelete.leave next calls)
      else none
    | _ => none
  | .timeout calls =>
    match s.thread with
    | .creating _ =>
      if s.isCreateResponseReady || s.hasUserRequestedStop then none
      else some { s with thread := .failing }
    | .deleting next =>
      if s.isDeleteResponseReady || s.hasUserRequestedStop then none
      else some (s.leave next calls)
    | _ => none
  | .configured => if s.thread = .configuring then some { s with thread := .playing } else none
  | .attributeFails => if s.thread = .configuring then some { s with thread := .failing } else none
  | .buffersFail calls =>
    if s.thread = .configuring then some (s.deinitAudioStream .failing calls) else none

/-- The answer to a creation. -/
def createStreamComplete (s : State) (request : Nat) (result : ErrorCode) : Option State :=
  if request ∈ s.creates then
    let s := { s with
      creates := s.creates.filter (· ≠ request)
      errToReport := result
      isCreateResponseReady := true }
    some (if result = .success then
      { s with
        audioPlayStream := some request
        isStreamOpened := true
        created := s.created ++ [request]
        opened := s.opened ++ [request] }
      else s)
  else none

/-- The answer to a deletion. -/
def deleteStreamComplete (s : State) (stream : Nat) (result : ErrorCode) : Option State :=
  if stream ∈ s.deletes then
    some { s with
      deletes := s.deletes.erase stream
      errToReport := result
      isDeleteResponseReady := true
      opened := if result = .success then s.opened.filter (· ≠ stream) else s.opened }
  else none

end State

inductive Step
  | startPlayback
  | stopPlayback
  | player (choice : Choice)
  | createStreamComplete (request : Nat) (result : ErrorCode)
  | deleteStreamComplete (stream : Nat) (result : ErrorCode)
deriving DecidableEq, Repr

def step (s : State) : Step → Option State
  | .startPlayback => some s.startPlayback
  | .stopPlayback => s.stopPlayback
  | .player choice => s.advance choice
  | .createStreamComplete request result => s.createStreamComplete request result
  | .deleteStreamComplete stream result => s.deleteStreamComplete stream result

/-- This step of the player thread calls `createStream`. -/
def CallsCreate (s : State) : Choice → Prop
  | .reinitAudioStream same calls => s.thread = .playing ∧ calls.createStream = true ∧
      (s.isStreamOpened = false ∨ same = false ∧ calls.deleteStream = false)
  | .wake calls | .timeout calls => s.thread = .deleting .reopening ∧ calls.createStream = true
  | _ => False

/-- A creation succeeds only while the player thread waits for it, and the player creates a stream
only when no other one is open. -/
def Timely (s : State) : Step → Prop
  | .createStreamComplete request result => result = .success → s.thread = .creating request
  | .player choice => CallsCreate s choice → s.opened = []
  | .startPlayback | .stopPlayback | .deleteStreamComplete _ _ => True

instance (s : State) (choice : Choice) : Decidable (CallsCreate s choice) := by
  cases choice <;> unfold CallsCreate <;> infer_instance

instance (s : State) (e : Step) : Decidable (Timely s e) := by
  cases e <;> unfold Timely <;> infer_instance

/-! ## No stream is lost -/

/-- Every stream that was created was passed to `deleteStream`. -/
def AllPassed (s : State) : Prop := ∀ stream ∈ s.created, stream ∈ s.passed

/-- Nothing is open that the player does not know of, and no two streams are open. -/
structure NoLeak (s : State) : Prop where
  allPassed : s.thread = .idle → s.creates = [] → s.deletes = [] → AllPassed s
  oneOpen : s.opened.length ≤ 1

/-- Every other stream than that of the player was passed to `deleteStream`. -/
def Covered (s : State) : Prop :=
  ∀ stream ∈ s.created, stream ∈ s.passed ∨
    s.isStreamOpened = true ∧ s.audioPlayStream = some stream

/-- What is known of the streams, by where the thread stands. -/
def Phase (s : State) : Prop :=
  match s.thread with
  | .idle | .deleting _ => AllPassed s
  | .creating request => Covered s ∧ (request ∈ s.creates → AllPassed s ∧ s.opened = [])
  | .playing | .configuring | .failing => Covered s

structure Inv (s : State) : Prop where
  phase : Phase s
  oneOpen : s.opened.length ≤ 1
  stream : s.isStreamOpened = true → s.audioPlayStream.isSome

variable {s s' : State} {next : Next} {calls : Calls}

theorem AllPassed.covered (h : AllPassed s) : Covered s := fun stream hs => .inl (h stream hs)

theorem Covered.allPassed (h : Covered s)
    (hnone : ∀ stream, ¬ (s.isStreamOpened = true ∧ s.audioPlayStream = some stream)) :
    AllPassed s :=
  fun stream hs => (h stream hs).resolve_right (hnone stream)

theorem initial_inv : Inv initial := ⟨fun _ h => absurd h List.not_mem_nil, Nat.zero_le 1, nofun⟩

theorem Inv.covered (h : Inv s) : Covered s := by
  have hphase := h.phase
  unfold Phase at hphase
  split at hphase
  · exact hphase.covered
  · exact hphase.covered
  · exact hphase.1
  all_goals exact hphase

/-- A creation is asked for when every stream was passed on and none is open. -/
theorem initAudioStream_inv (h : AllPassed s) (hone : s.opened.length ≤ 1)
    (hstream : s.isStreamOpened = true → s.audioPlayStream.isSome)
    (hopened : calls.createStream = true → s.opened = []) : Inv (s.initAudioStream calls) := by
  unfold State.initAudioStream
  dsimp only
  split_ifs with hcall
  · exact ⟨⟨h.covered, fun _ => ⟨h, hopened hcall⟩⟩, hone, hstream⟩
  · exact ⟨h.covered, hone, hstream⟩

theorem leave_inv (h : AllPassed s) (hone : s.opened.length ≤ 1)
    (hstream : s.isStreamOpened = true → s.audioPlayStream.isSome)
    (hopened : next = .reopening → calls.createStream = true → s.opened = []) :
    Inv (s.leave next calls) := by
  cases next with
  | reopening => exact initAudioStream_inv h hone hstream (hopened rfl)
  | failing => exact ⟨h.covered, hone, hstream⟩
  | finishing | terminating => exact ⟨h, hone, hstream⟩

/-- The stream of the player is passed on, so that none is left. -/
theorem deinitAudioStream_inv (h : Inv s) (hopen : next = .reopening → s.isStreamOpened = true)
    (hopened : next = .reopening → calls.deleteStream = false → calls.createStream = true →
      s.opened = []) : Inv (s.deinitAudioStream next calls) := by
  unfold State.deinitAudioStream
  split
  · rename_i stream _ hstream
    have hall : ∀ st ∈ s.created, st ∈ s.passed ++ [stream] := by
      intro st hst
      rcases h.covered st hst with hpassed | ⟨-, hsame⟩
      · exact List.mem_append_left _ hpassed
      · obtain rfl : stream = st := Option.some.inj (hstream.symm.trans hsame)
        exact List.mem_append_right _ List.mem_cons_self
    dsimp only
    split_ifs with hcall
    · exact ⟨hall, h.oneOpen, h.stream⟩
    · exact leave_inv hall h.oneOpen h.stream fun hnext =>
        hopened hnext (by simpa using hcall)
  · rename_i hnone
    have hclosed : ∀ stream, ¬ (s.isStreamOpened = true ∧ s.audioPlayStream = some stream) :=
      fun stream hboth => hnone stream hboth.1 hboth.2
    refine leave_inv (h.covered.allPassed hclosed) h.oneOpen h.stream fun hnext => ?_
    obtain ⟨stream, hstream⟩ := Option.isSome_iff_exists.mp (h.stream (hopen hnext))
    exact absurd ⟨hopen hnext, hstream⟩ (hclosed stream)

/-! ## The steps -/

theorem endCreate_inv (h : Inv s) : Inv s.endCreate := by
  refine ⟨?_, h.oneOpen, h.stream⟩
  unfold Phase State.endCreate
  cases s.hasUserRequestedStop || s.errToReport != .success <;> exact h.covered

/-- The end of the wait for a deletion only clears the flag. -/
theorem endDelete_same (s : State) : s.endDelete.opened = s.opened ∧
    s.endDelete.created = s.created ∧ s.endDelete.passed = s.passed := by
  unfold State.endDelete
  split_ifs <;> exact ⟨rfl, rfl, rfl⟩

theorem endDelete_allPassed (h : AllPassed s) : AllPassed s.endDelete := by
  rw [AllPassed, (endDelete_same s).2.1, (endDelete_same s).2.2]
  exact h

theorem endDelete_stream (h : s.isStreamOpened = true → s.audioPlayStream.isSome) :
    s.endDelete.isStreamOpened = true → s.endDelete.audioPlayStream.isSome := by
  unfold State.endDelete
  split_ifs
  · exact h
  · exact nofun

theorem advance_inv {choice : Choice} (h : Inv s) (hok : Timely s (.player choice))
    (hs : s.advance choice = some s') : Inv s' := by
  have hphase := h.phase
  cases choice with
  | reinitAudioStream same calls =>
    obtain ⟨hplaying, hs⟩ := Option.ite_none_right_eq_some.mp hs
    cases hs
    have hcreate : calls.createStream = true →
        (s.isStreamOpened = false ∨ same = false ∧ calls.deleteStream = false) → s.opened = [] :=
      fun hcall hwhy => hok ⟨hplaying, hcall, hwhy⟩
    split_ifs with hopen hsame
    · exact h
    · exact deinitAudioStream_inv h (fun _ => hopen) fun _ hdelete hcall =>
        hcreate hcall (.inr ⟨by simpa using hsame, hdelete⟩)
    · have hclosed : s.isStreamOpened = false := by simpa using hopen
      exact initAudioStream_inv (h.covered.allPassed fun _ hboth => hopen hboth.1) h.oneOpen
        h.stream fun hcall => hcreate hcall (.inl hclosed)
  | reportFinish calls =>
    obtain ⟨-, hs⟩ := Option.ite_none_right_eq_some.mp hs
    cases hs
    exact deinitAudioStream_inv h nofun nofun
  | terminatePlayback calls =>
    obtain ⟨-, hs⟩ := Option.ite_none_right_eq_some.mp hs
    cases hs
    exact deinitAudioStream_inv h nofun nofun
  | wake calls =>
    simp only [State.advance] at hs
    split at hs
    · obtain ⟨-, hs⟩ := Option.ite_none_right_eq_some.mp hs
      cases hs
      exact endCreate_inv h
    · rename_i next hthread
      obtain ⟨-, hs⟩ := Option.ite_none_right_eq_some.mp hs
      cases hs
      rw [Phase, hthread] at hphase
      refine leave_inv (endDelete_allPassed hphase)
        ((endDelete_same s).1 ▸ h.oneOpen) (endDelete_stream h.stream) fun hnext hcall => ?_
      rw [(endDelete_same s).1]
      exact hok ⟨hnext ▸ hthread, hcall⟩
    · cases hs
  | timeout calls =>
    simp only [State.advance] at hs
    split at hs
    · obtain ⟨-, hs⟩ := Option.ite_none_left_eq_some.mp hs
      cases hs
      exact ⟨h.covered, h.oneOpen, h.stream⟩
    · rename_i next hthread
      obtain ⟨-, hs⟩ := Option.ite_none_left_eq_some.mp hs
      cases hs
      rw [Phase, hthread] at hphase
      exact leave_inv hphase h.oneOpen h.stream fun hnext hcall => hok ⟨hnext ▸ hthread, hcall⟩
    · cases hs
  | configured =>
    obtain ⟨-, hs⟩ := Option.ite_none_right_eq_some.mp hs
    cases hs
    exact ⟨h.covered, h.oneOpen, h.stream⟩
  | attributeFails =>
    obtain ⟨-, hs⟩ := Option.ite_none_right_eq_some.mp hs
    cases hs
    exact ⟨h.covered, h.oneOpen, h.stream⟩
  | buffersFail calls =>
    obtain ⟨-, hs⟩ := Option.ite_none_right_eq_some.mp hs
    cases hs
    exact deinitAudioStream_inv h nofun nofun

theorem startPlayback_inv (h : Inv s) : Inv s.startPlayback := by
  unfold State.startPlayback
  split
  · rename_i hidle
    have hphase := h.phase
    rw [Phase, hidle] at hphase
    have hall : AllPassed s := hphase
    exact ⟨fun stream hstream => .inl (hall stream hstream), h.oneOpen, nofun⟩
  · exact h

/-- The request to stop concerns no stream. -/
theorem Inv.stop (h : Inv s) (b : Bool) : Inv { s with hasUserRequestedStop := b } :=
  ⟨h.phase, h.oneOpen, h.stream⟩

theorem stopPlayback_inv (h : Inv s) (hs : s.stopPlayback = some s') : Inv s' := by
  unfold State.stopPlayback at hs
  split at hs <;> cases hs
  · exact h
  · exact h.stop true

theorem createStreamComplete_inv {request : ℕ} {result : ErrorCode} (h : Inv s)
    (hok : Timely s (.createStreamComplete request result))
    (hs : s.createStreamComplete request result = some s') : Inv s' := by
  obtain ⟨hmem, hs⟩ := Option.ite_none_right_eq_some.mp hs
  have hphase := h.phase
  cases hs
  split_ifs with hresult
  · have hthread := hok hresult
    rw [Phase, hthread] at hphase
    obtain ⟨hall, hopened⟩ := hphase.2 hmem
    refine ⟨?_, ?_, fun _ => rfl⟩
    · unfold Phase
      rw [show _ = Thread.creating request from hthread]
      refine ⟨fun stream hstream => ?_, fun hagain => ?_⟩
      · rcases List.mem_append.mp hstream with hold | hnew
        · exact .inl (hall stream hold)
        · exact .inr ⟨rfl, by rw [List.mem_singleton.mp hnew]⟩
      · simp at hagain
    · change (s.opened ++ [request]).length ≤ 1
      rw [hopened]
      exact Nat.le_refl 1
  · refine ⟨?_, h.oneOpen, h.stream⟩
    unfold Phase at hphase ⊢
    cases hthread : s.thread with
    | creating r =>
      rw [hthread] at hphase
      exact ⟨hphase.1, fun hr => hphase.2 (List.mem_of_mem_filter hr)⟩
    | _ =>
      rw [hthread] at hphase
      exact hphase

theorem deleteStreamComplete_inv {stream : ℕ} {result : ErrorCode} (h : Inv s)
    (hs : s.deleteStreamComplete stream result = some s') : Inv s' := by
  obtain ⟨-, hs⟩ := Option.ite_none_right_eq_some.mp hs
  have hphase := h.phase
  have hless : (if result = .success then s.opened.filter (· ≠ stream)
      else s.opened).length ≤ s.opened.length := by
    split_ifs
    · exact List.length_filter_le _ _
    · exact Nat.le_refl _
  cases hs
  refine ⟨?_, hless.trans h.oneOpen, h.stream⟩
  unfold Phase at hphase ⊢
  cases hthread : s.thread with
  | creating r =>
    rw [hthread] at hphase
    refine ⟨hphase.1, fun hr => ⟨(hphase.2 hr).1, ?_⟩⟩
    refine List.length_eq_zero_iff.mp (Nat.le_zero.mp (hless.trans ?_))
    rw [(hphase.2 hr).2]
    exact Nat.le_refl 0
  | _ =>
    rw [hthread] at hphase
    exact hphase

theorem step_inv (e : Step) (hok : Timely s e) (hs : step s e = some s') (h : Inv s) : Inv s' := by
  cases e with
  | startPlayback =>
    cases hs
    exact startPlayback_inv h
  | stopPlayback => exact stopPlayback_inv h hs
  | player choice => exact advance_inv h hok hs
  | createStreamComplete request result => exact createStreamComplete_inv h hok hs
  | deleteStreamComplete stream result => exact deleteStreamComplete_inv h hs

/-- When every creation that succeeds is waited for, and a stream is only created when no other one
is open, no stream is leaked. -/
theorem no_stream_leaked (h : Runs.Reachable step Timely initial s) : NoLeak s := by
  have hinv := h.invariant initial_inv fun _ e _ hok hs hinv => step_inv e hok hs hinv
  refine ⟨fun hidle _ _ => ?_, hinv.oneOpen⟩
  have hphase := hinv.phase
  rwa [Phase, hidle] at hphase

/-- A stream is created, and deleted at the end of the playlist. -/
theorem no_stream_leaked_once : ∃ s : State, (s.thread, s.created, s.opened) = (.idle, [0], []) ∧
    NoLeak s := by
  obtain ⟨s, hs, hb⟩ := Runs.exists_reachable_of_run step Timely initial
    (fun s => (s.thread, s.created, s.opened)) (.idle, [0], [])
    [.startPlayback, .player (.reinitAudioStream false ⟨true, true⟩),
      .createStreamComplete 0 .success, .player (.wake ⟨true, true⟩), .player .configured,
      .player (.reportFinish ⟨true, true⟩), .deleteStreamComplete 0 .success,
      .player (.wake ⟨true, true⟩)]
    (by decide)
  exact ⟨s, hb, no_stream_leaked hs⟩

/-- The wait for a creation times out, and the session ends before the answer comes: the stream is
never deleted. -/
theorem stream_leaked : ∃ s, Runs.Reachable step Runs.anyStep initial s ∧ ¬ NoLeak s := by
  obtain ⟨s, hs, hb⟩ := Runs.exists_reachable_of_run step Runs.anyStep initial
    (fun s => (s.thread, s.creates, s.deletes, s.created, s.passed)) (.idle, [], [], [0], [])
    [.startPlayback, .player (.reinitAudioStream false ⟨true, true⟩),
      .player (.timeout ⟨true, true⟩), .player (.terminatePlayback ⟨true, true⟩),
      .createStreamComplete 0 .success]
    (by decide)
  simp only [Prod.mk.injEq] at hb
  obtain ⟨hidle, hcreates, hdeletes, hcreated, hpassed⟩ := hb
  refine ⟨s, hs, fun h => ?_⟩
  have hall := h.allPassed hidle hcreates hdeletes 0 (by rw [hcreated]; exact List.mem_cons_self)
  rw [hpassed] at hall
  cases hall

end Streams

end Player

end SatComm
