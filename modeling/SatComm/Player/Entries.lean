import SatComm.Audio.Service
import SatComm.Player.Session

/-!
# The entries of a playlist

A session plays the entries of its playlist one after the other. The stream that was opened for an
entry is kept for the next one when `isStreamConfigurationSame` finds no difference between that
entry and the one before it in the list. Of a compressed file the header is to be skipped; how long
it is depends on the format.

Of `executePlayback` the turns are left that do not fail, without a request to stop. A turn that
fails ends the run. Whether the old stream could be closed makes no difference, since a new one is
opened in any case. A write that is not accepted in full moves the position back.
-/

namespace SatComm

namespace Player

namespace Entries

inductive AudioFormat
  | unknown | pcm16BitSigned | amrNb | amrWb | amrWbPlus
deriving DecidableEq, Repr

inductive AmrwbpFrameFormat
  | unknown | transportInterfaceFormat | fileStorageFormat
deriving DecidableEq, Repr

structure AmrwbpParams where
  bitWidth : UInt32
  frameFormat : AmrwbpFrameFormat
deriving DecidableEq, Repr

/-- What the player reads of a stream configuration. -/
structure StreamConfig where
  type : Audio.StreamType
  sampleRate : UInt32
  channelTypeMask : Int
  format : AudioFormat
  deviceTypes : List Audio.DeviceType
  formatParams : Option AmrwbpParams
deriving DecidableEq, Repr

structure PlaybackConfig extends Player.PlaybackConfig where
  streamConfig : StreamConfig
deriving DecidableEq, Repr

/-- `isCompressed_` and `contentOffset_`, if the format is valid. -/
def setFormatAndOffset : AudioFormat → Option (Bool × Nat)
  | .amrWbPlus => some (true, 2)
  | .amrWb => some (true, 9)
  | .amrNb => some (true, 6)
  | .pcm16BitSigned => some (false, 0)
  | .unknown => none

/-- `isStreamConfigurationSame` -/
def StreamConfig.isSame (oldCfg curCfg : StreamConfig) : Bool :=
  if oldCfg.type ≠ curCfg.type ∨ oldCfg.sampleRate ≠ curCfg.sampleRate ∨
      oldCfg.format ≠ curCfg.format ∨ oldCfg.channelTypeMask ≠ curCfg.channelTypeMask ∨
      oldCfg.deviceTypes ≠ curCfg.deviceTypes then false
  else if curCfg.format = .pcm16BitSigned then true
  else
    match oldCfg.formatParams, curCfg.formatParams with
    | some amrPrmsOld, some amrPrmsCur =>
      amrPrmsOld.bitWidth = amrPrmsCur.bitWidth ∧ amrPrmsOld.frameFormat = amrPrmsCur.frameFormat
    | _, _ => false

/-- The two configurations are equal; the parameters are those of a compressed format. -/
structure StreamConfig.Equal (a b : StreamConfig) : Prop where
  type : a.type = b.type
  sampleRate : a.sampleRate = b.sampleRate
  format : a.format = b.format
  channelTypeMask : a.channelTypeMask = b.channelTypeMask
  deviceTypes : a.deviceTypes = b.deviceTypes
  formatParams : a.format ≠ .pcm16BitSigned → a.formatParams = b.formatParams

/-- A call of `write`, with the configuration that the stream was created with. -/
structure Write where
  index : Nat
  stream : Option StreamConfig
  isCompressed : Bool
  contentOffset : Nat
  samples : List UInt8
deriving DecidableEq, Repr

/-- What was written when `onFilePlayed` was reported. -/
structure Repetition where
  index : Nat
  file : String
  written : List UInt8
deriving DecidableEq, Repr

/-- Where the player thread is. -/
inductive Thread
  /-- At the test of the loop. -/
  | turn (nextState : PlayerState)
  /-- `playAudioSamples` has returned. -/
  | testingEof
  | ended
deriving DecidableEq, Repr

structure State where
  thread : Thread
  playbackConfigs : List PlaybackConfig
  curFileIdx : UInt32
  numTimesFilePlayed : UInt32
  curPbCfg : PlaybackConfig
  curFileName : String
  isFileOpened : Bool
  /-- The file position indicator and the end-of-file mark of `curFile_`. -/
  position : Nat
  eof : Bool
  isStreamOpened : Bool
  /-- What the stream was created with. -/
  audioPlayStream : Option StreamConfig
  bufferSize : Nat
  isCompressed : Bool
  contentOffset : Nat
  /-- What was written since the repetition began. -/
  written : List UInt8
  writes : List Write
  played : List Repetition
deriving DecidableEq, Repr

/-- A value-initialised `PlaybackConfig`. -/
def noConfig : PlaybackConfig where
  toPlaybackConfig := Player.noConfig
  streamConfig := ⟨.none, 0, 0, .unknown, [], none⟩

/-- The player after `resetState`. -/
def initial (playbackConfigs : List PlaybackConfig) : State where
  thread := .turn .initPlayer
  playbackConfigs := playbackConfigs
  curFileIdx := 0
  numTimesFilePlayed := 0
  curPbCfg := noConfig
  curFileName := ""
  isFileOpened := false
  position := 0
  eof := false
  isStreamOpened := false
  audioPlayStream := none
  bufferSize := 0
  isCompressed := false
  contentOffset := 0
  written := []
  writes := []
  played := []

/-- What a turn finds: the size of the buffers of a new stream, and whether the ADSP cannot take the
last buffers. -/
structure Choice where
  bufferSize : Nat
  limited : Bool
deriving DecidableEq, Repr

namespace State

/-- The entry at an index. -/
def config (s : State) (index : UInt32) : Option PlaybackConfig :=
  s.playbackConfigs[index.toNat]?

/-- The file is read from here on. -/
def seek (s : State) (position : Nat) : State :=
  { s with position := position, eof := false, written := [] }

def adjustFileAndState (s : State) : State :=
  s.seek (if s.isCompressed then s.contentOffset else 0)

/-- The file is played for the first time. -/
def first (s : State) : State :=
  { s with curFileName := s.curPbCfg.absoluteFilePath, thread := .turn .initFile }

/-- The file is played again. -/
def again (s : State) : State := { s.adjustFileAndState with thread := .turn .playSamples }

def selectFile (s : State) : State :=
  match s.config s.curFileIdx with
  | none => { s with thread := .turn .reportFinish }
  | some cfg =>
    let s := { s with curPbCfg := cfg }
    match cfg.repeatInfo.type with
    | .count =>
      if cfg.repeatInfo.count = 0 then { s with curFileIdx := s.curFileIdx + 1 }
      else if s.numTimesFilePlayed = (0 : UInt32) then s.first
      else if s.numTimesFilePlayed < cfg.repeatInfo.count then s.again
      else { s with
        numTimesFilePlayed := 0
        curFileIdx := s.curFileIdx + 1
        thread := .turn .deinitFile }
    | .skip => { s with curFileIdx := s.curFileIdx + 1 }
    | .indefinitely => if s.isFileOpened then s.again else s.first

def initFileToPlay (s : State) : Option State :=
  if s.curFileName = "" then none
  else some { s.seek 0 with isFileOpened := true, thread := .turn .reinitStream }

/-- `playbackConfigs_[curFileIdx - 1]` is read where a stream is open, that is, never at the first
entry, or a list of more than `2 ^ 32` entries was passed over. -/
def isStreamConfigurationSame (s : State) : Bool :=
  match s.config (s.curFileIdx - 1), s.config s.curFileIdx with
  | some old, some cur => old.streamConfig.isSame cur.streamConfig
  | _, _ => false

/-- `initAudioStream`, `prepareBuffers` and `setFormatAndOffset` -/
def openStream (s : State) (bufferSize : Nat) : Option State :=
  match s.config s.curFileIdx with
  | none => none
  | some cfg =>
    match setFormatAndOffset cfg.streamConfig.format with
    | none => none
    | some (isCompressed, contentOffset) =>
      some { s with
        isStreamOpened := true
        audioPlayStream := some cfg.streamConfig
        bufferSize := bufferSize
        isCompressed := isCompressed
        contentOffset := contentOffset
        thread := .turn .playSamples }

def reinitAudioStream (s : State) (bufferSize : Nat) : Option State :=
  if s.isStreamOpened ∧ s.isStreamConfigurationSame then some { s with thread := .turn .playSamples }
  else s.openStream bufferSize

/-- Nothing is written when the end of the file is found without any samples. -/
def playAudioSamples (content : List UInt8) (s : State) : State :=
  let read := (content.drop s.position).take s.bufferSize
  let eof := s.eof || decide (read.length < s.bufferSize)
  let s := { s with position := s.position + read.length, eof := eof, thread := .testingEof }
  if read = [] ∧ eof then s
  else { s with
    written := s.written ++ read
    writes := s.writes ++
      [⟨s.curFileIdx.toNat, s.audioPlayStream, s.isCompressed, s.contentOffset, read⟩] }

def reportPlayed (s : State) : State :=
  { s with
    played := s.played ++ [⟨s.curFileIdx.toNat, s.curFileName, s.written⟩]
    numTimesFilePlayed := match s.curPbCfg.repeatInfo.type with
      | .count => s.numTimesFilePlayed + 1
      | .skip | .indefinitely => s.numTimesFilePlayed
    thread := .turn .selectFile }

/-- The next step of the player thread; `files` are the contents by path. -/
def executePlayback (files : String → List UInt8) (s : State) (choice : Choice) : Option State :=
  match s.thread with
  | .turn .initPlayer =>
    some { s with curPbCfg := (s.config s.curFileIdx).getD noConfig, thread := .turn .selectFile }
  | .turn .selectFile => some s.selectFile
  | .turn .initFile => s.initFileToPlay
  | .turn .reinitStream => s.reinitAudioStream choice.bufferSize
  | .turn .playSamples => some (s.playAudioSamples (files s.curFileName))
  | .testingEof => some { s with thread := .turn (if s.eof then .filePlayEnd else .playSamples) }
  | .turn .filePlayEnd =>
    some { s with thread := .turn (if choice.limited then .playSamples else .reportPlayed) }
  | .turn .reportPlayed => some s.reportPlayed
  | .turn .deinitFile => some { s with isFileOpened := false, thread := .turn .selectFile }
  | .turn .reportFinish => some { s with isStreamOpened := false, thread := .ended }
  | .turn .reportError | .turn .terminate | .ended => none

/-- `writeComplete` for a write of which so many samples were not accepted. -/
def writeComplete (s : State) (rejected : Nat) : State :=
  { s with position := s.position - rejected, eof := false }

end State

inductive Step
  | player (choice : Choice)
  | writeComplete (rejected : Nat)
deriving DecidableEq, Repr

def step (files : String → List UInt8) (s : State) : Step → Option State
  | .player choice => s.executePlayback files choice
  | .writeComplete rejected => some (s.writeComplete rejected)

/-- Every write is accepted in full. -/
def Accepts (_ : State) : Step → Prop
  | .player choice => choice.limited = false
  | .writeComplete _ => False

instance (s : State) (e : Step) : Decidable (Accepts s e) := by
  cases e <;> unfold Accepts <;> infer_instance

end Entries

end Player

end SatComm
