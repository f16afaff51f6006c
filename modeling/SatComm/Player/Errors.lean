import SatComm.Player.Entries

/-!
# Errors of a session

An operation of the player returns a code, and `executePlayback` goes on to `REPORT_ERROR` when it is
not `SUCCESS`; what is reported there is `errToReport_`, which only some of the operations set before
they fail, and which every answer of the audio server sets, whenever it arrives.

A step of the player thread is what it does between two calls or waits. What a call returns and what
the file gives is part of the step. The cached volume, mute state and devices are applied in one
step, which may fail with any code. The answers of earlier sessions have arrived.
-/

namespace SatComm

namespace Player

namespace Errors

open Entries (AudioFormat setFormatAndOffset)

/-- What follows the return of `deinitAudioStream` within `reinitAudioStream`. -/
inductive Deinit
  | reopening
  /-- The new stream is not usable, for this reason. -/
  | failing (ec : ErrorCode)
deriving DecidableEq, Repr

/-- Where the player thread is. -/
inductive Thread
  /-- At the test of the loop. -/
  | loop (nextState : PlayerState)
  | turn (nextState : PlayerState)
  /-- Before `deleteStream`, and waiting for the answer. -/
  | closing (next : Deinit)
  | deleting (next : Deinit)
  /-- Before `createStream`, and waiting for the answer. -/
  | opening
  | creating
  | configuring
  | preparingBuffers
  | registering
  | waitingForBuffer
  | waitingForAdsp
  /-- Before `fread` and before `write`, with a buffer and `writeMtx_`. -/
  | reading
  | writing
  | testingEof
  /-- In `waitAllWriteResponse`, at the test of its loop and in the wait. -/
  | countingBuffers
  | waitingForAnswers
  /-- `finalizePlayback` before it takes `writeMtx_` the first and the second time. -/
  | finalizing
  | resending
  /-- Before `stopAudio`, waiting for the answer, and waiting for `onPlayStopped`. -/
  | stopping
  | waitingForStop
  | draining
  | ended
deriving DecidableEq, Repr

/-- A notification, with what it is to be judged by. -/
inductive Report
  /-- `onError` with this code, and the codes of what had failed. -/
  | error (ec : ErrorCode) (causes : List ErrorCode) (file : String)
  /-- `onFilePlayed`, and the errors of the repetition. -/
  | filePlayed (file : String) (errors : List ErrorCode)
deriving DecidableEq, Repr

structure State where
  playbackConfigs : List Entries.PlaybackConfig
  thread : Thread
  curFileIdx : UInt32
  numTimesFilePlayed : UInt32
  curPbCfg : Entries.PlaybackConfig
  hasUserRequestedStop : Bool
  hasSsrOccurred : Bool
  curFileName : String
  isFileOpened : Bool
  isStreamOpened : Bool
  isCompressed : Bool
  isAdspWriteReady : Bool
  buffersAllocated : Bool
  /-- The number of buffers in `bufferPool_`. -/
  pool : Nat
  /-- The numbers of writes and other requests that are not answered. -/
  inFlight : Nat
  creates : Nat
  deletes : Nat
  stops : Nat
  isCreateResponseReady : Bool
  isDeleteResponseReady : Bool
  isStopResponseReady : Bool
  isStopAudioReady : Bool
  errToReport : ErrorCode
  /-- The last answer to a creation. -/
  createResult : ErrorCode
  /-- The errors that were answered to the writes and to `stopAudio` in this repetition. -/
  errors : List ErrorCode
  /-- What failed when an operation returned an error. -/
  causes : List ErrorCode
  log : List Report
deriving DecidableEq, Repr

/-- The player after `resetState`. -/
def initial (playbackConfigs : List Entries.PlaybackConfig) : State where
  playbackConfigs := playbackConfigs
  thread := .loop .initPlayer
  curFileIdx := 0
  numTimesFilePlayed := 0
  curPbCfg := Entries.noConfig
  hasUserRequestedStop := false
  hasSsrOccurred := false
  curFileName := ""
  isFileOpened := false
  isStreamOpened := false
  isCompressed := false
  isAdspWriteReady := true
  buffersAllocated := false
  pool := 0
  inFlight := 0
  creates := 0
  deletes := 0
  stops := 0
  isCreateResponseReady := false
  isDeleteResponseReady := false
  isStopResponseReady := false
  isStopAudioReady := false
  errToReport := .success
  createResult := .success
  errors := []
  causes := []
  log := []

/-- What the next call or wait of the player thread comes to. -/
inductive Choice
  /-- It succeeds, or the wait is over. -/
  | proceed
  | fails (ec : ErrorCode)
  | timeout
  /-- The file is at its end. -/
  | eof
deriving DecidableEq, Repr

namespace State

/-- The entry at an index. -/
def config (s : State) (index : UInt32) : Option Entries.PlaybackConfig :=
  s.playbackConfigs[index.toNat]?

/-- The operation returned `SUCCESS`. -/
def go (s : State) (nextState : PlayerState) : State := { s with thread := .loop nextState }

/-- The operation returned an error, since these had failed. -/
def failFor (s : State) (causes : List ErrorCode) : State :=
  { s with causes := causes, thread := .loop .reportError }

/-- The operation failed and returned this code. -/
def fail (s : State) (ec : ErrorCode) : State := s.failFor [ec]

/-- It set `errToReport_`, too, or `executePlayback` did. -/
def failStored (s : State) (ec : ErrorCode) : State := { s with errToReport := ec }.fail ec

/-- A wait with a predicate: how it ends when `ready` holds, when it is cut short, and when it times
out. -/
def wait (s : State) (ready : Bool) (woken : State) (failed : ErrorCode → State) :
    Choice → Option State
  | .proceed =>
    if ready || s.hasSsrOccurred || s.hasUserRequestedStop then
      some (if s.hasSsrOccurred then failed .subsystemUnavailable
        else if s.hasUserRequestedStop then failed .cancelled
        else woken)
    else none
  | .timeout =>
    if ready || s.hasSsrOccurred || s.hasUserRequestedStop then none
    else some (failed .operationTimeout)
  | .fails _ | .eof => none

/-- A call that returns a status; the code of a status other than `SUCCESS` is not `SUCCESS`. -/
def call (accepted : State) (failed : ErrorCode → State) : Choice → Option State
  | .proceed => some accepted
  | .fails ec => if ec = .success then none else some (failed ec)
  | .timeout | .eof => none

/-! ## The stream -/

/-- What follows the return of `deinitAudioStream`, whatever it returns. -/
def leave (s : State) (next : Deinit) : State :=
  let s := { s with pool := 0, buffersAllocated := false }
  match next with
  | .reopening => { s with thread := .opening }
  | .failing ec => s.fail ec

/-- `deinitAudioStream` up to the wait. -/
def deinitAudioStream (s : State) (next : Deinit) (choice : Choice) : Option State :=
  if s.isStreamOpened then
    let s := { s with isDeleteResponseReady := false }
    call { s with deletes := s.deletes + 1, thread := .deleting next } (fun _ => s.leave next) choice
  else some (s.leave next)

/-- The rest of it. -/
def endDelete (s : State) (next : Deinit) (choice : Choice) : Option State :=
  let closed := if s.errToReport = .success then { s with isStreamOpened := false } else s
  s.wait s.isDeleteResponseReady (closed.leave next) (fun _ => s.leave next) choice

def isStreamConfigurationSame (s : State) : Bool :=
  match s.config (s.curFileIdx - 1), s.config s.curFileIdx with
  | some old, some cur => old.streamConfig.isSame cur.streamConfig
  | _, _ => false

def reinitAudioStream (s : State) : State :=
  let s := { s with isAdspWriteReady := true }
  if s.isStreamOpened then
    if s.isStreamConfigurationSame then s.go .playSamples else { s with thread := .closing .reopening }
  else { s with thread := .opening }

/-- `initAudioStream` up to the wait. -/
def initAudioStream (s : State) (choice : Choice) : Option State :=
  let s := { s with isCreateResponseReady := false }
  call { s with creates := s.creates + 1, thread := .creating } s.fail choice

def endCreate (s : State) (choice : Choice) : Option State :=
  s.wait s.isCreateResponseReady
    (if s.errToReport ≠ .success then s.failFor [s.createResult]
      else { s with thread := .configuring })
    s.fail choice

/-- The format of the entry at `curFileIdx_`. -/
def format (s : State) : AudioFormat := ((s.config s.curFileIdx).getD Entries.noConfig).streamConfig.format

/-- `prepareBuffers` and `setFormatAndOffset` -/
def prepareBuffers (s : State) : Choice → Option State
  | .proceed =>
    let s := { s with pool := s.pool + 2, buffersAllocated := true }
    match setFormatAndOffset s.format with
    | none => some { s with thread := .closing (.failing .invalidArguments) }
    | some (true, _) => some { s with isCompressed := true, thread := .registering }
    | some (false, _) => some ({ s with isCompressed := false }.go .playSamples)
  | .fails _ =>
    some { s with pool := 0, buffersAllocated := false, thread := .closing (.failing .noMemory) }
  | .timeout | .eof => none

/-! ## The samples -/

/-- A buffer is there; a compressed stream also has to be ready. -/
def fill (s : State) : State :=
  if s.isCompressed && !s.isAdspWriteReady then { s with thread := .waitingForAdsp }
  else { s with pool := s.pool - 1, thread := .reading }

/-- The wait for a buffer has no predicate. -/
def endBufferWait (s : State) : Choice → Option State
  | .proceed =>
    if s.hasSsrOccurred then some (s.failStored .subsystemUnavailable)
    else if s.errToReport ≠ .success then some (s.failFor s.errors)
    else if s.pool = 0 then none
    else some s.fill
  | .timeout => some (s.failStored .operationTimeout)
  | .fails _ | .eof => none

/-- `fread`, which may find nothing more, and the buffer goes back. -/
def readSamples (s : State) : Choice → Option State
  | .proceed => some { s with thread := .writing }
  | .eof => some { s with pool := s.pool + 1, thread := .testingEof }
  | .fails _ => some ({ s with pool := s.pool + 1 }.fail .systemErr)
  | .timeout => none

def writeSamples (s : State) (choice : Choice) : Option State :=
  call { s with inFlight := s.inFlight + 1, thread := .testingEof } { s with pool := s.pool + 1 }.fail
    choice

def testEof (s : State) : Choice → Option State
  | .proceed => some (s.go .playSamples)
  | .eof => some (s.go .filePlayEnd)
  | .fails _ | .timeout => none

/-! ## The end of a file -/

/-- `finalizePlayback` returns this code, since these had failed. -/
def finish (s : State) (ec : ErrorCode) (causes : List ErrorCode) : State :=
  if ec = .success then s.go .reportPlayed
  else if ec = .requestRateLimited then s.go .playSamples
  else s.failFor causes

def endAnswerWait (s : State) : Choice → Option State
  | .proceed =>
    some (if s.hasSsrOccurred then s.fail .subsystemUnavailable
      else { s with thread := .countingBuffers })
  | .timeout => some (s.fail .operationTimeout)
  | .fails _ | .eof => none

def finalize (s : State) : State :=
  if s.errToReport = .success ∧ s.isAdspWriteReady then
    if s.isCompressed then { s with thread := .stopping } else s.finish .success []
  else { s with thread := .resending }

def resend (s : State) : State :=
  if s.errToReport ≠ .success then s.finish s.errToReport s.errors
  else if !s.isAdspWriteReady then s.finish .requestRateLimited []
  else s.finish .success []

/-- `finalizeCompressedPlayback` up to the first wait. -/
def stopAudio (s : State) (choice : Choice) : Option State :=
  let s := { s with isStopAudioReady := false, isStopResponseReady := false }
  call { s with stops := s.stops + 1, thread := .waitingForStop } (fun ec => s.finish ec [ec])
    choice

def endStop (s : State) (choice : Choice) : Option State :=
  s.wait s.isStopResponseReady
    (if s.errToReport ≠ .success then s.finish s.errToReport s.errors
      else { s with thread := .draining })
    s.fail choice

/-! ## The playlist -/

/-- The file is played again; `fseek` is called for a compressed one. -/
def again (s : State) (choice : Choice) : State :=
  match s.isCompressed, choice with
  | true, .fails _ => s.failStored .systemErr
  | _, _ => { s with errors := [] }.go .playSamples

/-- The file is played for the first time. -/
def first (s : State) : State :=
  { s with curFileName := s.curPbCfg.absoluteFilePath }.go .initFile

def selectFile (s : State) (choice : Choice) : State :=
  match s.config s.curFileIdx with
  | none => s.go .reportFinish
  | some cfg =>
    let s := { s with curPbCfg := cfg }
    match cfg.repeatInfo.type with
    | .count =>
      if cfg.repeatInfo.count = 0 then { s with curFileIdx := s.curFileIdx + 1 }.go .selectFile
      else if s.numTimesFilePlayed = (0 : UInt32) then s.first
      else if s.numTimesFilePlayed < cfg.repeatInfo.count then s.again choice
      else { s with numTimesFilePlayed := 0, curFileIdx := s.curFileIdx + 1 }.go .deinitFile
    | .skip => { s with curFileIdx := s.curFileIdx + 1 }.go .selectFile
    | .indefinitely => if s.isFileOpened then s.again choice else s.first

def initFileToPlay (s : State) (choice : Choice) : State :=
  if s.curFileName = "" then s.failStored .missingResource
  else
    match choice with
    | .fails _ => s.failStored .noSuchElement
    | _ => { s with isFileOpened := true, errors := [] }.go .reinitStream

def reportPlayed (s : State) : State :=
  { s with
    log := s.log ++ [Report.filePlayed s.curFileName s.errors]
    numTimesFilePlayed := match s.curPbCfg.repeatInfo.type with
      | .count => s.numTimesFilePlayed + 1
      | .skip | .indefinitely => s.numTimesFilePlayed }.go .selectFile

def reportError (s : State) : State :=
  { s with
    log := s.log ++ [Report.error s.errToReport s.causes s.curFileName]
    thread := .loop .terminate }

/-- The states of the loop. -/
def executePlayback (s : State) (nextState : PlayerState) (choice : Choice) : Option State :=
  match nextState with
  | .initPlayer =>
    let s := { s with curPbCfg := (s.config s.curFileIdx).getD Entries.noConfig }
    call (s.go .selectFile) s.failStored choice
  | .selectFile => some (s.selectFile choice)
  | .initFile => some (s.initFileToPlay choice)
  | .reinitStream => some s.reinitAudioStream
  | .playSamples => some (if s.pool = 0 then { s with thread := .waitingForBuffer } else s.fill)
  | .filePlayEnd => some { s with thread := .countingBuffers }
  | .reportPlayed => some s.reportPlayed
  | .deinitFile =>
    some ((if choice = .proceed then { s with isFileOpened := false } else s).go .selectFile)
  | .reportFinish =>
    some (if s.hasUserRequestedStop then { s with thread := .loop .reportFinish }
      else { s with thread := .ended })
  | .reportError => some s.reportError
  | .terminate => some { s with thread := .ended }

/-- The next step of the player thread. What follows the loop reports no error and no file. -/
def advance (s : State) (choice : Choice) : Option State :=
  match s.thread with
  | .loop nextState =>
    some { s with
      thread := if !s.hasUserRequestedStop && !s.hasSsrOccurred then .turn nextState else .ended }
  | .turn nextState => s.executePlayback nextState choice
  | .closing next => s.deinitAudioStream next choice
  | .deleting next => s.endDelete next choice
  | .opening => s.initAudioStream choice
  | .creating => s.endCreate choice
  | .configuring => call { s with thread := .preparingBuffers } s.fail choice
  | .preparingBuffers => s.prepareBuffers choice
  | .registering =>
    call (s.go .playSamples) (fun ec => { s with thread := .closing (.failing ec) }) choice
  | .waitingForBuffer => s.endBufferWait choice
  | .waitingForAdsp =>
    s.wait s.isAdspWriteReady { s with pool := s.pool - 1, thread := .reading } s.failStored choice
  | .reading => s.readSamples choice
  | .writing => s.writeSamples choice
  | .testingEof => s.testEof choice
  | .countingBuffers =>
    some { s with
      thread := if s.buffersAllocated && s.pool != 2 then .waitingForAnswers else .finalizing }
  | .waitingForAnswers => s.endAnswerWait choice
  | .finalizing => some s.finalize
  | .resending => some s.resend
  | .stopping => s.stopAudio choice
  | .waitingForStop => s.endStop choice
  | .draining => s.wait s.isStopAudioReady (s.finish .success []) s.fail choice
  | .ended => none

/-! ## What others do -/

/-- The player thread holds `writeMtx_`. -/
def locked (s : State) : Bool := s.thread = .reading ∨ s.thread = .writing

def createStreamComplete (s : State) (result : ErrorCode) : Option State :=
  if s.creates = 0 then none
  else some { s with
    creates := s.creates - 1
    isStreamOpened := s.isStreamOpened || result == .success
    errToReport := result
    createResult := result
    isCreateResponseReady := true }

def deleteStreamComplete (s : State) (result : ErrorCode) : Option State :=
  if s.deletes = 0 then none
  else some { s with
    deletes := s.deletes - 1
    errToReport := result
    isDeleteResponseReady := true }

def stopAudioComplete (s : State) (result : ErrorCode) : Option State :=
  if s.stops = 0 then none
  else some { s with
    stops := s.stops - 1
    errToReport := result
    isStopResponseReady := true
    errors := if s.thread = .waitingForStop ∧ result ≠ .success then s.errors ++ [result]
      else s.errors }

/-- `writeComplete`; a write that succeeds may not have been accepted in full. -/
def writeComplete (s : State) (full : Bool) (ec : ErrorCode) : Option State :=
  if s.inFlight = 0 ∨ s.locked then none
  else some { s with
    inFlight := s.inFlight - 1
    pool := s.pool + 1
    errToReport := ec
    isAdspWriteReady := s.isAdspWriteReady && !(s.isCompressed && ec == .success && !full)
    errors := if ec = .success then s.errors else s.errors ++ [ec] }

end State

inductive Step
  | player (choice : Choice)
  | createStreamComplete (result : ErrorCode)
  | deleteStreamComplete (result : ErrorCode)
  | stopAudioComplete (result : ErrorCode)
  | writeComplete (full : Bool) (ec : ErrorCode)
  | onReadyForWrite
  | onPlayStopped
  | stopPlayback
  | onServiceStatusChange (available : Bool)
deriving DecidableEq, Repr

def step (s : State) : Step → Option State
  | .player choice => s.advance choice
  | .createStreamComplete result => s.createStreamComplete result
  | .deleteStreamComplete result => s.deleteStreamComplete result
  | .stopAudioComplete result => s.stopAudioComplete result
  | .writeComplete full ec => s.writeComplete full ec
  | .onReadyForWrite => if s.locked then none else some { s with isAdspWriteReady := true }
  | .onPlayStopped => if s.locked then none else some { s with isStopAudioReady := true }
  | .stopPlayback => some { s with hasUserRequestedStop := true }
  | .onServiceStatusChange available => some { s with hasSsrOccurred := !available }

end Errors

end Player

end SatComm
