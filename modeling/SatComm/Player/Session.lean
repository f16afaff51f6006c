import SatComm.Player.Samples

/-!
# Playback sessions

A client starts a session of `AudioPlayerImpl` with a playlist and a listener, and may stop it. The
session is a task of the player's task queue, which runs its tasks one after the other in one
thread; the task is `executePlayback`, a loop over the states of the player.

A step of the thread is the test of the loop, one turn of the loop, or a part of what follows the
loop between two points where `playerMtx_` is free. What the operations on the file, the stream and
the audio manager return is part of the step. The listeners live as long as the player.
-/

namespace SatComm

namespace Player

inductive RepeatType
  | count | indefinitely | skip
deriving DecidableEq, Repr

structure RepeatInfo where
  type : RepeatType
  count : UInt32
deriving DecidableEq, Repr

/-- How the stream is configured is not part of it. -/
structure PlaybackConfig where
  absoluteFilePath : String
  repeatInfo : RepeatInfo
deriving DecidableEq, Repr

inductive PlayerState
  | initPlayer | selectFile | initFile | reinitStream | playSamples | filePlayEnd | reportPlayed
  | deinitFile | reportFinish | reportError | terminate
deriving DecidableEq, Repr

/-- The calls of `IPlayListListener`. -/
inductive Notification
  | playbackStarted
  | filePlayed (file : String)
  | error (ec : ErrorCode) (file : String)
  | playbackFinished
  | playbackStopped
deriving DecidableEq, Repr

/-- The local variables of `executePlayback`. -/
structure Locals where
  curFileIdx : UInt32
  numTimesFilePlayed : UInt32
  curPbCfg : PlaybackConfig
  nextState : PlayerState
deriving DecidableEq, Repr

/-- Where the player thread is. -/
inductive Control
  /-- Between two tasks. -/
  | idle
  /-- At the test of the loop. -/
  | loop (l : Locals)
  | turn (l : Locals)
  /-- Before `terminatePlayback`, in `TERMINATE` or behind the loop. -/
  | terminating (l : Locals) (inLoop : Bool)
  /-- Behind `terminatePlayback`. -/
  | deregistering (l : Locals)
  | reporting (l : Locals)
deriving DecidableEq, Repr

/-- What the operations return that a turn of the loop calls, and whether the file is at its end
after `playAudioSamples`. -/
structure Results where
  registerForSSREvent : ErrorCode
  fopen : Bool
  reinitAudioStream : ErrorCode
  playAudioSamples : ErrorCode
  eof : Bool
  finalizePlayback : ErrorCode
  fseek : Bool
  fclose : Bool
  deinitAudioStream : ErrorCode
  /-- What a failed operation leaves in `errToReport_` and `isStreamOpened_`. -/
  errToReport : ErrorCode
  isStreamOpened : Bool
deriving DecidableEq, Repr

/-- A notification, with the listener that got it, and with the session and the position in the
playlist that it came from. -/
structure Entry where
  session : Nat
  listener : Nat
  index : Nat
  notification : Notification
deriving DecidableEq, Repr

structure State where
  isPlayInProgress : Bool
  hasUserRequestedStop : Bool
  hasSsrOccurred : Bool
  isFileOpened : Bool
  isStreamOpened : Bool
  curFileName : String
  errToReport : ErrorCode
  statusListener : Nat
  playbackConfigs : List PlaybackConfig
  /-- The sessions whose task waits in the task queue. -/
  tasks : List Nat
  control : Control
  /-- The session of the task that runs or ran last. -/
  session : Nat
  /-- The listeners that were passed to the successful calls of `startPlayback`. -/
  listeners : List Nat
  log : List Entry
deriving DecidableEq, Repr

def initial : State where
  isPlayInProgress := false
  hasUserRequestedStop := false
  hasSsrOccurred := false
  isFileOpened := false
  isStreamOpened := false
  curFileName := ""
  errToReport := .success
  statusListener := 0
  playbackConfigs := []
  tasks := []
  control := .idle
  session := 0
  listeners := []
  log := []

/-- A value-initialised `PlaybackConfig`. -/
def noConfig : PlaybackConfig := ⟨"", ⟨.count, 0⟩⟩

/-- The local variables when the task begins. -/
def Locals.initial : Locals where
  curFileIdx := 0
  numTimesFilePlayed := 0
  curPbCfg := noConfig
  nextState := .initPlayer

namespace State

/-! ## The calls of the clients -/

def resetState (s : State) : State :=
  { s with
    curFileName := ""
    isFileOpened := false
    hasSsrOccurred := false
    isStreamOpened := false
    hasUserRequestedStop := false
    errToReport := .success }

/-- `startPlayback`, which cannot queue the task when the queue is shutting down. -/
def startPlayback (s : State) (playbackConfigs : List PlaybackConfig) (statusListener : Nat)
    (added : Bool) : ErrorCode × State :=
  if s.isPlayInProgress then (.invalidState, s)
  else if playbackConfigs = [] then (.invalidArguments, s)
  else
    let s := { s with statusListener, playbackConfigs }.resetState
    if added then
      (.success, { s with
        tasks := s.tasks ++ [s.listeners.length]
        listeners := s.listeners ++ [statusListener]
        isPlayInProgress := true })
    else (.operationNotAllowed, s)

def stopPlayback (s : State) : ErrorCode × State :=
  if s.isPlayInProgress then (.success, { s with hasUserRequestedStop := true })
  else (.invalidState, s)

/-- `onServiceStatusChange`. -/
def onServiceStatusChange (s : State) (available : Bool) : State :=
  { s with hasSsrOccurred := !available }

/-! ## The player thread -/

/-- The listener is notified. -/
def report (s : State) (l : Locals) (notification : Notification) : State :=
  { s with log := s.log ++ [⟨s.session, s.statusListener, l.curFileIdx.toNat, notification⟩] }

def initFileToPlay (s : State) (r : Results) : ErrorCode × State :=
  if s.curFileName = "" then (.missingResource, s)
  else if r.fopen then (.success, { s with isFileOpened := true })
  else (.noSuchElement, s)

def deinitFileToPlay (s : State) (r : Results) : State :=
  if s.isFileOpened && r.fclose then { s with isFileOpened := false } else s

def deinitAudioStream (s : State) (r : Results) : State :=
  if s.isStreamOpened && r.deinitAudioStream == .success then { s with isStreamOpened := false }
  else s

def reinitAudioStream (s : State) (r : Results) : ErrorCode × State :=
  if r.reinitAudioStream = .success then (.success, { s with isStreamOpened := true })
  else (r.reinitAudioStream,
    { s with errToReport := r.errToReport, isStreamOpened := r.isStreamOpened })

def adjustFileAndState (r : Results) : ErrorCode := if r.fseek then .success else .systemErr

/-- An operation was called by `executePlayback`; the loop goes on as it succeeded or failed. -/
def next (s : State) (l : Locals) (ec : ErrorCode) (onSuccess : PlayerState) : State :=
  { s with
    control := .loop { l with nextState := if ec = .success then onSuccess else .reportError } }

/-- The file at `curFileIdx` is played again. -/
def again (s : State) (l : Locals) (r : Results) : State :=
  let ec := adjustFileAndState r
  { s with
    errToReport := if ec = ErrorCode.success then s.errToReport else ec }.next l ec .playSamples

/-- The file at `curFileIdx` is played for the first time. -/
def first (s : State) (l : Locals) : State :=
  { s with
    curFileName := l.curPbCfg.absoluteFilePath
    control := .loop { l with nextState := .initFile } }

/-- The state `SELECT_FILE`. -/
def selectFile (s : State) (l : Locals) (r : Results) : State :=
  match s.playbackConfigs[l.curFileIdx.toNat]? with
  | none => { s with control := .loop { l with nextState := .reportFinish } }
  | some cfg =>
    let l := { l with curPbCfg := cfg }
    match cfg.repeatInfo.type with
    | .count =>
      if cfg.repeatInfo.count = 0 then
        { s with control := .loop { l with curFileIdx := l.curFileIdx + 1 } }
      else if l.numTimesFilePlayed = 0 then s.first l
      else if l.numTimesFilePlayed < cfg.repeatInfo.count then s.again l r
      else { s with control := .loop { l with
          numTimesFilePlayed := 0
          curFileIdx := l.curFileIdx + 1
          nextState := .deinitFile } }
    | .skip => { s with control := .loop { l with curFileIdx := l.curFileIdx + 1 } }
    | .indefinitely => if s.isFileOpened then s.again l r else s.first l

/-- The states of the loop. -/
def executePlayback (s : State) (l : Locals) (r : Results) : State :=
  match l.nextState with
  | .initPlayer =>
    let s := s.report l .playbackStarted
    let l := { l with curPbCfg := (s.playbackConfigs[l.curFileIdx.toNat]?).getD noConfig }
    let ec := r.registerForSSREvent
    { s with
      errToReport := if ec = ErrorCode.success then s.errToReport else ec }.next l ec .selectFile
  | .selectFile => s.selectFile l r
  | .initFile =>
    let (ec, s) := s.initFileToPlay r
    { s with
      errToReport := if ec = ErrorCode.success then s.errToReport else ec }.next l ec .reinitStream
  | .reinitStream =>
    let (ec, s) := s.reinitAudioStream r
    s.next l ec .playSamples
  | .playSamples =>
    let ec := r.playAudioSamples
    if ec = .success then s.next l ec (if r.eof then .filePlayEnd else .playSamples)
    else { s with errToReport := r.errToReport }.next l ec .playSamples
  | .filePlayEnd =>
    let ec := r.finalizePlayback
    if ec = .success then s.next l ec .reportPlayed
    else if ec = .requestRateLimited then s.next l .success .playSamples
    else { s with errToReport := r.errToReport }.next l ec .reportPlayed
  | .reportPlayed =>
    let s := s.report l (.filePlayed s.curFileName)
    let played := match l.curPbCfg.repeatInfo.type with
      | .count => l.numTimesFilePlayed + 1
      | .skip | .indefinitely => l.numTimesFilePlayed
    s.next { l with numTimesFilePlayed := played } .success .selectFile
  | .deinitFile => (s.deinitFileToPlay r).next l .success .selectFile
  | .reportFinish =>
    -- under `playerMtx_` up to the return
    if s.hasUserRequestedStop then { s with control := .loop l }
    else
      { s.deinitAudioStream r with
        isPlayInProgress := false
        hasUserRequestedStop := false
        control := .idle }.report l .playbackFinished
  | .reportError => (s.report l (.error s.errToReport s.curFileName)).next l .success .terminate
  | .terminate => { s with control := .terminating l true }

/-- `terminatePlayback`, under `playerMtx_`. -/
def terminatePlayback (s : State) (r : Results) : State :=
  if s.isPlayInProgress then
    { (if s.hasSsrOccurred then s else s.deinitAudioStream r).deinitFileToPlay r with
      isPlayInProgress := false
      hasUserRequestedStop := false }
  else s

/-- The next step of the player thread, if it has anything to do. -/
def advance (s : State) (r : Results) : Option State :=
  match s.control with
  | .idle =>
    match s.tasks with
    | [] => none
    | session :: tasks => some { s with session, tasks, control := .loop Locals.initial }
  | .loop l =>
    if !s.hasUserRequestedStop && !s.hasSsrOccurred then some { s with control := .turn l }
    else some { s with control := .terminating l false }
  | .turn l => some (s.executePlayback l r)
  | .terminating l inLoop =>
    some { s.terminatePlayback r with
      control := if inLoop then .reporting l else .deregistering l }
  | .deregistering l => some { s with control := .reporting l }
  | .reporting l => some { s.report l .playbackStopped with control := .idle }

end State

inductive Step
  | startPlayback (playbackConfigs : List PlaybackConfig) (statusListener : Nat) (added : Bool)
  | stopPlayback
  | onServiceStatusChange (available : Bool)
  | player (r : Results)
deriving DecidableEq, Repr

def step (s : State) : Step → Option State
  | .startPlayback playbackConfigs statusListener added =>
    some (s.startPlayback playbackConfigs statusListener added).2
  | .stopPlayback => some s.stopPlayback.2
  | .onServiceStatusChange available => some (s.onServiceStatusChange available)
  | .player r => s.advance r

theorem startPlayback_log (s : State) (playbackConfigs : List PlaybackConfig)
    (statusListener : Nat) (added : Bool) :
    (s.startPlayback playbackConfigs statusListener added).2.log = s.log := by
  unfold State.startPlayback
  split_ifs <;> rfl

/-- Every operation succeeds, and the file is always at its end. -/
def smooth : Results where
  registerForSSREvent := .success
  fopen := true
  reinitAudioStream := .success
  playAudioSamples := .success
  eof := true
  finalizePlayback := .success
  fseek := true
  fclose := true
  deinitAudioStream := .success
  errToReport := .success
  isStreamOpened := true

/-! ## What a turn of the loop does to the session -/

/-- The last notification of a session. -/
def Notification.ends : Notification → Bool
  | .playbackFinished | .playbackStopped => true
  | .playbackStarted | .filePlayed _ | .error _ _ => false

/-- The session and its listener are as before. -/
structure Keeps (s s' : State) : Prop where
  statusListener : s'.statusListener = s.statusListener
  tasks : s'.tasks = s.tasks
  session : s'.session = s.session
  listeners : s'.listeners = s.listeners

/-- The session goes on, with at most one notification, which is not its last. -/
structure Goes (s s' : State) : Prop extends Keeps s s' where
  isPlayInProgress : s'.isPlayInProgress = s.isPlayInProgress
  control : (∃ l, s'.control = .loop l) ∨ ∃ l inLoop, s'.control = .terminating l inLoop
  log : s'.log = s.log ∨ ∃ l notification, notification.ends = false ∧
    s'.log = (s.report l notification).log

/-- The session is finished. -/
structure Finishes (s s' : State) : Prop extends Keeps s s' where
  isPlayInProgress : s'.isPlayInProgress = false
  control : s'.control = .idle
  log : ∃ l, s'.log = (s.report l .playbackFinished).log

variable {s t : State} {l : Locals} {r : Results}

/-- Nothing that concerns the session was touched before the loop goes on. -/
structure Silent (s t : State) : Prop extends Keeps s t where
  isPlayInProgress : t.isPlayInProgress = s.isPlayInProgress
  log : t.log = s.log

theorem Silent.goes (h : Silent s t) (l : Locals) : Goes s { t with control := .loop l } :=
  ⟨⟨h.statusListener, h.tasks, h.session, h.listeners⟩, h.isPlayInProgress, .inl ⟨l, rfl⟩,
    .inl h.log⟩

theorem Silent.refl (s : State) : Silent s s := ⟨⟨rfl, rfl, rfl, rfl⟩, rfl, rfl⟩

theorem initFileToPlay_silent (s : State) (r : Results) : Silent s (s.initFileToPlay r).2 := by
  unfold State.initFileToPlay
  split_ifs <;> exact ⟨⟨rfl, rfl, rfl, rfl⟩, rfl, rfl⟩

theorem deinitFileToPlay_silent (s : State) (r : Results) : Silent s (s.deinitFileToPlay r) := by
  unfold State.deinitFileToPlay
  split_ifs <;> exact ⟨⟨rfl, rfl, rfl, rfl⟩, rfl, rfl⟩

theorem deinitAudioStream_silent (s : State) (r : Results) : Silent s (s.deinitAudioStream r) := by
  unfold State.deinitAudioStream
  split_ifs <;> exact ⟨⟨rfl, rfl, rfl, rfl⟩, rfl, rfl⟩

theorem reinitAudioStream_silent (s : State) (r : Results) :
    Silent s (s.reinitAudioStream r).2 := by
  unfold State.reinitAudioStream
  split_ifs <;> exact ⟨⟨rfl, rfl, rfl, rfl⟩, rfl, rfl⟩

theorem selectFile_goes (s : State) (l : Locals) (r : Results) : Goes s (s.selectFile l r) := by
  unfold State.selectFile
  split
  · exact (Silent.refl s).goes _
  · dsimp only
    split
    · split_ifs <;> exact ⟨⟨rfl, rfl, rfl, rfl⟩, rfl, .inl ⟨_, rfl⟩, .inl rfl⟩
    · exact (Silent.refl s).goes _
    · split_ifs <;> exact ⟨⟨rfl, rfl, rfl, rfl⟩, rfl, .inl ⟨_, rfl⟩, .inl rfl⟩

theorem Silent.err (h : Silent s t) (ec : ErrorCode) : Silent s { t with errToReport := ec } :=
  ⟨⟨h.statusListener, h.tasks, h.session, h.listeners⟩, h.isPlayInProgress, h.log⟩

theorem Silent.next (h : Silent s t) (l : Locals) (ec : ErrorCode) (st : PlayerState) :
    Goes s (t.next l ec st) := h.goes _

/-- A notification before the loop goes on. -/
theorem report_goes (s : State) (l l' : Locals) (notification : Notification)
    (hends : notification.ends = false) (ec : ErrorCode) :
    Goes s { s.report l notification with errToReport := ec, control := .loop l' } :=
  ⟨⟨rfl, rfl, rfl, rfl⟩, rfl, .inl ⟨_, rfl⟩, .inr ⟨l, notification, hends, rfl⟩⟩

/-- A turn of the loop either goes on or finishes the session. -/
theorem executePlayback_cases (s : State) (l : Locals) (r : Results) :
    Goes s (s.executePlayback l r) ∨ Finishes s (s.executePlayback l r) := by
  have hs := Silent.refl s
  unfold State.executePlayback
  cases l.nextState with
  | initPlayer => exact .inl (report_goes s l _ _ rfl _)
  | selectFile => exact .inl (selectFile_goes s l r)
  | initFile =>
    have hsilent := initFileToPlay_silent s r
    cases hinit : s.initFileToPlay r with
    | mk ec t =>
      rw [hinit] at hsilent
      exact .inl ((hsilent.err _).next l ec _)
  | reinitStream =>
    have hsilent := reinitAudioStream_silent s r
    cases hinit : s.reinitAudioStream r with
    | mk ec t =>
      rw [hinit] at hsilent
      exact .inl (hsilent.next l ec _)
  | playSamples =>
    dsimp only
    split_ifs
    · exact .inl (hs.next l _ _)
    · exact .inl (hs.next l _ _)
    · exact .inl ((hs.err _).next l _ _)
  | filePlayEnd =>
    dsimp only
    split_ifs
    · exact .inl (hs.next l _ _)
    · exact .inl (hs.next l _ _)
    · exact .inl ((hs.err _).next l _ _)
  | reportPlayed => exact .inl (report_goes s l _ _ rfl _)
  | deinitFile => exact .inl ((deinitFileToPlay_silent s r).next l _ _)
  | reportFinish =>
    dsimp only
    split_ifs
    · exact .inl (hs.goes l)
    · have hsilent := deinitAudioStream_silent s r
      refine .inr ⟨⟨hsilent.statusListener, hsilent.tasks, hsilent.session, hsilent.listeners⟩, rfl,
        rfl, l, ?_⟩
      simp only [State.report, hsilent.log, hsilent.session, hsilent.statusListener]
  | reportError => exact .inl (report_goes s l _ _ rfl _)
  | terminate => exact .inl ⟨⟨rfl, rfl, rfl, rfl⟩, rfl, .inr ⟨l, true, rfl⟩, .inl rfl⟩

theorem terminatePlayback_keeps (s : State) (r : Results) :
    Keeps s (s.terminatePlayback r) ∧ (s.terminatePlayback r).log = s.log ∧
      (s.terminatePlayback r).isPlayInProgress = false := by
  unfold State.terminatePlayback
  split_ifs with hplay hssr
  · have hfile := deinitFileToPlay_silent s r
    exact ⟨⟨hfile.statusListener, hfile.tasks, hfile.session, hfile.listeners⟩, hfile.log, rfl⟩
  · have hstream := deinitAudioStream_silent s r
    have hfile := deinitFileToPlay_silent (s.deinitAudioStream r) r
    exact ⟨⟨hfile.statusListener.trans hstream.statusListener, hfile.tasks.trans hstream.tasks,
      hfile.session.trans hstream.session, hfile.listeners.trans hstream.listeners⟩,
      hfile.log.trans hstream.log, rfl⟩
  · exact ⟨⟨rfl, rfl, rfl, rfl⟩, rfl, by simpa using hplay⟩

end Player

end SatComm
