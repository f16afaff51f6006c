import SatComm.Runs.Basic

/-!
# Playing the samples of a file

`AudioPlayerImpl` plays a file with two buffers. `playAudioSamples` fills a buffer at the position
of the file and writes it to the stream; the answer to a write arrives at `writeComplete`, which
moves the position back by what was not accepted, and only then takes `writeMtx_`. When
`executePlayback` notices the end of the file, `finalizePlayback` waits for the last answers and
decides whether the file has been played.

A step of the player thread is what it does between two points where another thread can come in.
A wait that times out ends the playback with an error, so such a run is the beginning of one
without the time-out. The answers reach the player one at a time.
-/

namespace SatComm

namespace Player

/-- What an operation of the player returns, or an answer of the server says. -/
inductive ErrorCode
  | success | invalidState | invalidArguments | systemErr | operationTimeout
  | subsystemUnavailable | cancelled | noMemory | missingResource | noSuchElement
  | requestRateLimited | operationNotAllowed
  | other (code : Nat)
deriving DecidableEq, Repr

/-- A file and how it is played. -/
structure Recording where
  content : List UInt8
  bufferSize : Nat
  bufferSize_pos : 0 < bufferSize
  isCompressed : Bool
  contentOffset : Nat

namespace Samples

/-- Where the player thread is. It holds `writeMtx_` while it stands at `reading` and `writing`. -/
inductive Thread
  | playing
  | waitingForBuffer
  | waitingForAdsp
  /-- `fread` has returned these bytes. -/
  | reading (read : List UInt8)
  /-- They are about to be written. -/
  | writing (read : List UInt8)
  | testingEof
  | waitingForAnswers
  /-- `finalizePlayback` before it takes `writeMtx_` the first and the second time. -/
  | finalizing
  | resending
  | stopping
  | played
  | failed
deriving DecidableEq, Repr

/-- What the server had accepted of a repetition when `onFilePlayed` was reported. -/
structure Report where
  start : Nat
  accepted : List UInt8
  /-- A write had been answered with an error. -/
  errored : Bool
deriving DecidableEq, Repr

structure State where
  thread : Thread
  /-- The file position indicator and the end-of-file mark of `curFile_`. -/
  position : Nat
  eof : Bool
  /-- The number of buffers in `bufferPool_`. -/
  pool : Nat
  isAdspWriteReady : Bool
  errToReport : ErrorCode
  /-- The writes that the server has not answered. -/
  inFlight : List (List UInt8)
  /-- `writeComplete` has moved the position back and is about to take `writeMtx_`. -/
  answering : Option (ErrorCode × Nat)
  /-- So many of the writes in flight the server answers with 0 bytes. -/
  refused : Nat
  /-- The server accepts nothing until it has called `onReadyForWrite`. -/
  blocked : Bool
  /-- Where the repetition started reading, and what was accepted of it. -/
  start : Nat
  accepted : List UInt8
  errored : Bool
  reports : List Report
deriving DecidableEq, Repr

/-- The file and the stream are open. -/
def initial : State where
  thread := .playing
  position := 0
  eof := false
  pool := 2
  isAdspWriteReady := true
  errToReport := .success
  inFlight := []
  answering := none
  refused := 0
  blocked := false
  start := 0
  accepted := []
  errored := false
  reports := []

namespace State

/-- `fread` into a buffer of the pool. -/
def fread (p : Recording) (s : State) : State :=
  let read := (p.content.drop s.position).take p.bufferSize
  { s with
    pool := s.pool - 1
    position := s.position + read.length
    eof := s.eof || decide (read.length < p.bufferSize)
    thread := .reading read }

/-- A buffer is there; a compressed stream also has to be ready. -/
def fill (p : Recording) (s : State) : State :=
  if p.isCompressed && !s.isAdspWriteReady then { s with thread := .waitingForAdsp }
  else s.fread p

/-- `playAudioSamples` between `fread` and the write. -/
def checkRead (p : Recording) (s : State) (read : List UInt8) : State :=
  if read = [] ∧ s.eof then { s with pool := s.pool + 1, thread := .testingEof }
  else if read.length ≠ p.bufferSize ∧ ¬ s.eof then
    { s with pool := s.pool + 1, thread := .failed }
  else { s with thread := .writing read }

def write (s : State) (read : List UInt8) : State :=
  { s with inFlight := s.inFlight ++ [read], thread := .testingEof }

/-- `onFilePlayed`. -/
def reportPlayed (s : State) : State :=
  { s with
    thread := .played
    reports := s.reports ++ [⟨s.start, s.accepted, s.errored⟩] }

/-- The file is played again. -/
def adjustFileAndState (p : Recording) (s : State) : State :=
  let offset := if p.isCompressed then p.contentOffset else 0
  { s with
    position := offset
    eof := false
    start := offset
    accepted := []
    thread := .playing }

/-- The next step of the player thread, if it is not blocked or at its end. -/
def advance (p : Recording) (s : State) : Option State :=
  match s.thread with
  | .playing => some (if s.pool = 0 then { s with thread := .waitingForBuffer } else s.fill p)
  | .waitingForBuffer =>
    if s.pool = 0 then none
    else if s.errToReport ≠ .success then some { s with thread := .failed }
    else some (s.fill p)
  | .waitingForAdsp => if s.isAdspWriteReady then some (s.fread p) else none
  | .reading read => some (s.checkRead p read)
  | .writing read => some (s.write read)
  | .testingEof =>
    some { s with thread := if s.eof then .waitingForAnswers else .playing }
  | .waitingForAnswers => if s.pool = 2 then some { s with thread := .finalizing } else none
  | .finalizing =>
    if s.errToReport = .success ∧ s.isAdspWriteReady then
      if p.isCompressed then some { s with thread := .stopping } else some s.reportPlayed
    else some { s with thread := .resending }
  | .resending =>
    if s.errToReport ≠ .success then some { s with thread := .failed }
    -- REQUEST_RATE_LIMITED: the rest is sent again
    else if !s.isAdspWriteReady then some { s with thread := .playing }
    else some s.reportPlayed
  | .stopping => some s.reportPlayed
  | .played => some (s.adjustFileAndState p)
  | .failed => none

/-- `fseek` backwards from where the position is. -/
def seekBack (s : State) (rewindLength : Nat) : State :=
  if rewindLength ≤ s.position then
    { s with position := s.position - rewindLength, eof := false }
  else s

/-- The server accepts `bytesWritten` bytes of the oldest write. -/
def accept (p : Recording) (s : State) (buffer : List UInt8) (rest : List (List UInt8))
    (bytesWritten : Nat) : State :=
  { s with
    inFlight := rest
    accepted := s.accepted ++ buffer.take bytesWritten
    answering := some (.success, buffer.length - bytesWritten)
    refused := if buffer.length ≠ bytesWritten then rest.length else s.refused - 1
    blocked := s.blocked || (p.isCompressed && decide (buffer.length ≠ bytesWritten)) }

/-- The server answers the oldest write; the answer reaches `writeComplete`, which moves the
position back by what was not accepted. -/
def answer (p : Recording) (s : State) (bytesWritten : Nat) : Option State :=
  match s.inFlight with
  | [] => none
  | buffer :: rest =>
    if s.answering = none ∧ bytesWritten ≤ buffer.length ∧
        (s.refused ≠ 0 ∨ s.blocked → bytesWritten = 0) then
      if buffer.length ≠ bytesWritten then
        some ((s.accept p buffer rest bytesWritten).seekBack (buffer.length - bytesWritten))
      else some (s.accept p buffer rest bytesWritten)
    else none

/-- The server answers the oldest write with an error. -/
def answerError (s : State) (ec : ErrorCode) : Option State :=
  match s.inFlight with
  | [] => none
  | _ :: rest =>
    if s.answering = none ∧ ec ≠ .success then
      some { s with
        inFlight := rest
        refused := s.refused - 1
        answering := some (ec, 0)
        errored := true }
    else none

/-- The player thread holds `writeMtx_`. -/
def locked (s : State) : Bool :=
  match s.thread with
  | .reading _ | .writing _ => true
  | _ => false

/-- `writeComplete` under `writeMtx_`. -/
def writeComplete (p : Recording) (s : State) : Option State :=
  match s.answering with
  | none => none
  | some (ec, rewindLength) =>
    if s.locked then none
    else some { s with
      errToReport := ec
      isAdspWriteReady := s.isAdspWriteReady && !(p.isCompressed && rewindLength != 0)
      pool := s.pool + 1
      answering := none }

/-- A compressed stream has the player as its listener. -/
def onReadyForWrite (p : Recording) (s : State) : Option State :=
  if p.isCompressed ∧ ¬ s.locked then some { s with isAdspWriteReady := true, blocked := false }
  else none

end State

inductive Step
  | player
  | answer (bytesWritten : Nat)
  | answerError (ec : ErrorCode)
  | writeComplete
  | onReadyForWrite
deriving DecidableEq, Repr

def step (p : Recording) (s : State) : Step → Option State
  | .player => s.advance p
  | .answer bytesWritten => s.answer p bytesWritten
  | .answerError ec => s.answerError ec
  | .writeComplete => s.writeComplete p
  | .onReadyForWrite => s.onReadyForWrite p

end Samples

end Player

end SatComm
