import SatComm.Runs.Basic
import SatComm.Runs.Maps

/-!
# The streams of the audio service

`AudioServiceImpl` gives each stream an identifier below `MAX_NUM_STREAMS`. Three places speak of
it: the bitmap of used identifiers, the array of streams, and the lists that each connected client
has for each type of stream. `voiceCallList` says for each slot whether it has a voice call.

The tasks of the service run one after the other, and each is a step. The answers of the backend and
the outcomes of allocations are part of the step. What reads or writes outside an array, or through
a null pointer, is not defined.
-/

namespace SatComm

namespace Audio

abbrev MAX_NUM_STREAMS : Nat := 16

abbrev StreamId := Fin MAX_NUM_STREAMS

instance neZeroMaxNumStreams : NeZero MAX_NUM_STREAMS := ⟨nofun⟩

/-- `none` stands for `NONE` and for the values without a name. -/
inductive StreamType
  | none | voiceCall | play | capture | loopback | toneGenerator
deriving DecidableEq, Repr

/-- `other` stands for the codes that only the backend gives. -/
inductive ErrorCode
  | success | genericFailure | noMemory | noResources | invalidArg | invalidArguments | systemErr
  | other (code : Int)
deriving DecidableEq, Repr

inductive StreamPurpose
  | transcoderIn | transcoderOut | default
deriving DecidableEq, Repr

inductive SSREvent
  | audioOnline | audioOffline
deriving DecidableEq, Repr

inductive Direction
  | rx | tx
deriving DecidableEq, Repr

abbrev DeviceType := Int

abbrev DEVICE_TYPE_BT_SCO_SPEAKER : DeviceType := 4

abbrev DEVICE_TYPE_BT_SCO_MIC : DeviceType := 260

abbrev INVALID_SLOT_ID : Int := -1

structure StreamConfiguration where
  type : StreamType
  slotId : Int
  deviceTypes : List DeviceType
  voicePaths : List Direction
  enableHpcm : Bool
deriving DecidableEq, Repr

/-- The configuration of a transcoder's streams, but for its type. -/
def StreamConfiguration.ofType (type : StreamType) : StreamConfiguration where
  type := type
  slotId := INVALID_SLOT_ID
  deviceTypes := []
  voicePaths := []
  enableHpcm := false

/-- What a creation meets: which of its allocations succeed, and the answer of the backend. -/
structure Setup where
  stream : Bool
  buffer : Bool
  privateStreamData : Bool
  backend : ErrorCode
deriving DecidableEq, Repr

/-- The code does not record who asked for the stream; `createdFor` is for the statements. -/
structure Stream where
  type : StreamType
  slotId : Int
  isIncallStream : Bool
  isBtStream : Bool
  isHpcmStream : Bool
  createdFor : Int
deriving DecidableEq, Repr

/-- The two slots have the entries 1 and 2. -/
abbrev VoiceCallList := Fin 3 → Int

/-- The entry of a slot, which has to be in the list. -/
def voiceCallIndex? (slotId : Int) : Option (Fin 3) :=
  if h : 0 ≤ slotId ∧ slotId < 3 then some ⟨slotId.toNat, by omega⟩ else none

namespace Stream

def new (config : StreamConfiguration) (clientId : Int) : Stream where
  type := config.type
  slotId := config.slotId
  isIncallStream := false
  isBtStream := false
  isHpcmStream := false
  createdFor := clientId

/-- The backend has no part in such a stream. -/
def Special (stream : Stream) : Prop :=
  stream.isIncallStream = true ∨ stream.isBtStream = true ∨ stream.isHpcmStream = true

instance (stream : Stream) : Decidable stream.Special :=
  inferInstanceAs (Decidable (_ ∨ _ ∨ _))

/-- The end of `setupStream`: the backend opens the stream, then its private data is allocated. -/
def createStream (stream : Stream) (setup : Setup) : ErrorCode × Stream :=
  (if setup.privateStreamData then if stream.Special then .success else setup.backend
    else .noMemory, stream)

/-- In-call, Bluetooth and HPCM streams of the two directions. `bt` is the device that makes it a
Bluetooth stream. -/
def route (stream : Stream) (config : StreamConfiguration) (isBtStream : Bool) : Stream :=
  { stream with
    isIncallStream := decide (config.voicePaths ≠ [])
    isBtStream := isBtStream
    isHpcmStream := config.enableHpcm }

def setupStream (config : StreamConfiguration) (setup : Setup) (clientId : Int) :
    Option (ErrorCode × Stream) :=
  let stream := new config clientId
  match config.type with
  | .voiceCall =>
    if config.deviceTypes.length ≠ 2 then some (.invalidArg, stream)
    else
      let isBtStream := decide (config.deviceTypes.head? = some DEVICE_TYPE_BT_SCO_SPEAKER ∨
        config.deviceTypes.head? = some DEVICE_TYPE_BT_SCO_MIC)
      some (createStream
        { stream with isBtStream := isBtStream, isHpcmStream := config.enableHpcm } setup)
  | .play => do
    let device ← config.deviceTypes.head?
    -- a playback goes on through the case of a capture
    if setup.buffer then
      some (createStream (stream.route config (decide
        (device = DEVICE_TYPE_BT_SCO_SPEAKER ∨ device = DEVICE_TYPE_BT_SCO_MIC))) setup)
    else some (.noMemory, stream)
  | .capture =>
    if setup.buffer then do
      let device ← config.deviceTypes.head?
      some (createStream (stream.route config (decide (device = DEVICE_TYPE_BT_SCO_MIC))) setup)
    else some (.noMemory, stream)
  | .loopback | .toneGenerator => some (createStream stream setup)
  | .none => some (.invalidArguments, stream)

/-- `setupInTranscodeStream` and `setupOutTranscodeStream` up to the type of the stream. -/
def setupTranscodeStream (type : StreamType) (setup : Setup) (clientId : Int) :
    ErrorCode × Stream :=
  (if setup.buffer then setup.backend else .noMemory, new (.ofType type) clientId)

def setupInTranscodeStream (setup : Setup) (clientId : Int) : ErrorCode × Stream :=
  setupTranscodeStream .play setup clientId

def setupOutTranscodeStream (setup : Setup) (clientId : Int) : ErrorCode × Stream :=
  setupTranscodeStream .capture setup clientId

/-- The end of `cleanupStream`, whatever the backend answered. The slot of a voice stream is one of
the list. -/
def lowered (stream : Stream) (voiceCallList : VoiceCallList) : VoiceCallList :=
  match stream.type, voiceCallIndex? stream.slotId with
  | .voiceCall, some slot => Function.update voiceCallList slot 0
  | _, _ => voiceCallList

/-- `backend` is the answer of the backend to the deletion. -/
def cleanupStream (stream : Stream) (backend : ErrorCode) (voiceCallList : VoiceCallList) :
    ErrorCode × VoiceCallList :=
  (if stream.Special then .success else backend, stream.lowered voiceCallList)

/-- What `doRead` and `doWrite` answer to an access that reaches the stream. No access is an AMR
write for which the pipeline is full: `doWrite` answers it before it looks at the list, with no byte
written. -/
def access (stream : Stream) (backend : ErrorCode) (voiceCallList : VoiceCallList) :
    Option ErrorCode :=
  if stream.Special then
    (voiceCallIndex? stream.slotId).map fun slot =>
      if voiceCallList slot = 0 ∧ stream.isIncallStream = true then .systemErr else .success
  else some backend

end Stream

/-- A type without a list is one with an empty list. -/
structure AudioClient where
  streamIdsList : StreamType → List StreamId

namespace AudioClient

def new : AudioClient where
  streamIdsList := fun _ => []

/-- The types in the reverse of their order, in which the clean-up goes through them. -/
def types : List StreamType := [.toneGenerator, .loopback, .capture, .play, .voiceCall, .none]

/-- All streams of the client, in the order of the clean-up. -/
def streamIds (client : AudioClient) : List StreamId := types.flatMap client.streamIdsList

def associateStream (client : AudioClient) (streamId : StreamId) (type : StreamType) :
    AudioClient where
  streamIdsList :=
    Function.update client.streamIdsList type (client.streamIdsList type ++ [streamId])

/-- Without a type, the search goes through copies of the lists and erases from a copy. -/
def disassociateStream (client : AudioClient) (streamId : StreamId) (type : StreamType) :
    Bool × AudioClient :=
  if type ≠ .none then
    if streamId ∈ client.streamIdsList type then
      (true, ⟨Function.update client.streamIdsList type
        ((client.streamIdsList type).erase streamId)⟩)
    else (false, client)
  else (decide (streamId ∈ client.streamIds), client)

def disassociateAllStreams (_ : AudioClient) : AudioClient := new

end AudioClient

/-- A client is kept under its own identifier. -/
structure AudioService where
  streamIdIndexes : StreamId → Bool
  streamsCache : StreamId → Option Stream
  audioClientsList : Assoc.Map Int AudioClient
  ssrInProgress : Bool
  voiceCallList : VoiceCallList

namespace AudioService

def new : AudioService where
  streamIdIndexes := fun _ => false
  streamsCache := fun _ => none
  audioClientsList := .empty
  ssrInProgress := false
  voiceCallList := fun _ => 0

/-! ## The caches -/

def getNextAvailableStreamID (s : AudioService) : Option (StreamId × AudioService) :=
  ((List.finRange MAX_NUM_STREAMS).find? fun x => ! s.streamIdIndexes x).map fun x =>
    (x, { s with streamIdIndexes := Function.update s.streamIdIndexes x true })

def releaseStreamId (s : AudioService) (streamId : StreamId) : AudioService :=
  { s with streamIdIndexes := Function.update s.streamIdIndexes streamId false }

def purgeAllStreamIds (s : AudioService) : AudioService :=
  { s with streamIdIndexes := fun _ => false }

def cacheStream (s : AudioService) (streamId : StreamId) (stream : Stream) : AudioService :=
  { s with streamsCache := Function.update s.streamsCache streamId (some stream) }

def unCacheStream (s : AudioService) (streamId : StreamId) : AudioService :=
  { s with streamsCache := Function.update s.streamsCache streamId none }

/-- The client that was looked up under `clientId`. -/
def associateStream (s : AudioService) (clientId : Int) (client : AudioClient) (type : StreamType)
    (streamId : StreamId) : AudioService :=
  { s with
    audioClientsList := s.audioClientsList.set clientId (client.associateStream streamId type) }

/-- The clients are asked in turn, until one says that it had the stream. -/
def disassociateStream (s : AudioService) (streamId : StreamId) : AudioService :=
  match s.audioClientsList.pairs.find? fun p => (p.2.disassociateStream streamId .none).1 with
  | some (clientId, client) =>
    { s with
      audioClientsList :=
        s.audioClientsList.set clientId (client.disassociateStream streamId .none).2 }
  | none => s

def disassociateAllStreams (s : AudioService) : AudioService :=
  { s with
    audioClientsList := s.audioClientsList.filterMap fun client =>
      some client.disassociateAllStreams }

/-! ## Clients and SSR events -/

def handleClientConnect (s : AudioService) (clientId : Int) : AudioService :=
  { s with audioClientsList := s.audioClientsList.set clientId .new }

/-- The part of both clean-ups that closes a stream. -/
def closeStream (s : AudioService) (streamId : StreamId) : AudioService :=
  match s.streamsCache streamId with
  | some stream =>
    ({ s with voiceCallList := stream.lowered s.voiceCallList }).unCacheStream streamId
  | none => s.unCacheStream streamId

/-- The loop body of a disconnect. -/
def giveUpStream (s : AudioService) (streamId : StreamId) : AudioService :=
  ((s.disassociateStream streamId).closeStream streamId).releaseStreamId streamId

/-- The request of a client that is not connected is answered before. -/
def handleClientDisconnect (s : AudioService) (clientId : Int) : Option AudioService :=
  (s.audioClientsList.get? clientId).map fun client =>
    let s := client.streamIds.foldl giveUpStream s
    { s with audioClientsList := s.audioClientsList.erase clientId }

def handleSSREvent (s : AudioService) : SSREvent → AudioService
  | .audioOnline => { s with ssrInProgress := false }
  | .audioOffline =>
    let s := { s with ssrInProgress := true }
    ((s.audioClientsList.values.flatMap AudioClient.streamIds).foldl closeStream
      s).disassociateAllStreams.purgeAllStreamIds

/-! ## Requests -/

/-- `voiceCallList[slotId] = 1`, for a voice call. -/
def raiseVoiceCall (s : AudioService) (config : StreamConfiguration) : Option AudioService :=
  if config.type = .voiceCall then
    (voiceCallIndex? config.slotId).map fun slot =>
      { s with voiceCallList := Function.update s.voiceCallList slot 1 }
  else some s

def setup (purpose : StreamPurpose) (config : StreamConfiguration) (setup : Setup)
    (clientId : Int) : Option (ErrorCode × Stream) :=
  match purpose with
  | .transcoderIn => some (Stream.setupInTranscodeStream setup clientId)
  | .transcoderOut => some (Stream.setupOutTranscodeStream setup clientId)
  | .default => Stream.setupStream config setup clientId

/-- The answer has the identifier that was reserved, and 0 where none was. -/
def doCreateStream (s : AudioService) (clientId : Int) (config : StreamConfiguration)
    (resources : Setup) (purpose : StreamPurpose) :
    Option (ErrorCode × StreamId × AudioService) :=
  if s.ssrInProgress = true then some (.genericFailure, 0, s)
  else do
    let s ← s.raiseVoiceCall config
    if resources.stream = false then some (.noMemory, 0, s)
    else
      match s.getNextAvailableStreamID with
      | none => some (.noResources, 0, s)
      | some (streamId, s) => do
        let (ec, stream) ← setup purpose config resources clientId
        if ec ≠ .success then some (ec, streamId, s.releaseStreamId streamId)
        else do
          let client ← s.audioClientsList.get? clientId
          some (ec, streamId,
            (s.cacheStream streamId stream).associateStream clientId client config.type streamId)

/-- `backend` is the answer of the backend to the deletion. -/
def doDeleteStream (s : AudioService) (streamId : StreamId) (backend : ErrorCode) :
    ErrorCode × AudioService :=
  match s.streamsCache streamId with
  | none => (.invalidArguments, s)
  | some stream =>
    let s := ((s.unCacheStream streamId).releaseStreamId streamId).disassociateStream streamId
    let (ec, voiceCallList) := stream.cleanupStream backend s.voiceCallList
    (ec, { s with voiceCallList := voiceCallList })

/-- `backend` is the answer to the deletion of the first stream where the second fails. -/
def doCreateTranscoder (s : AudioService) (clientId : Int) (inSetup outSetup : Setup)
    (backend : ErrorCode) : Option AudioService := do
  let (ec, inStreamId, s) ← s.doCreateStream clientId (.ofType .play) inSetup .transcoderIn
  if ec ≠ .success then some s
  else do
    let (ec, _, s) ← s.doCreateStream clientId (.ofType .capture) outSetup .transcoderOut
    if ec ≠ .success then some (s.doDeleteStream inStreamId backend).2 else some s

def doDeleteTranscoder (s : AudioService) (inStreamId outStreamId : StreamId)
    (inBackend outBackend : ErrorCode) : AudioService :=
  ((s.doDeleteStream inStreamId inBackend).2.doDeleteStream outStreamId outBackend).2

end AudioService

inductive Task
  | connect (clientId : Int)
  | disconnect (clientId : Int)
  | ssr (event : SSREvent)
  | createStream (clientId : Int) (config : StreamConfiguration) (resources : Setup)
  | deleteStream (streamId : StreamId) (backend : ErrorCode)
  | createTranscoder (clientId : Int) (inSetup outSetup : Setup) (backend : ErrorCode)
  | deleteTranscoder (inStreamId outStreamId : StreamId) (inBackend outBackend : ErrorCode)
deriving DecidableEq, Repr

def step (s : AudioService) : Task → Option AudioService
  | .connect clientId => some (s.handleClientConnect clientId)
  | .disconnect clientId => s.handleClientDisconnect clientId
  | .ssr event => some (s.handleSSREvent event)
  | .createStream clientId config resources =>
    (s.doCreateStream clientId config resources .default).map fun answer => answer.2.2
  | .deleteStream streamId backend => some (s.doDeleteStream streamId backend).2
  | .createTranscoder clientId inSetup outSetup backend =>
    s.doCreateTranscoder clientId inSetup outSetup backend
  | .deleteTranscoder inStreamId outStreamId inBackend outBackend =>
    some (s.doDeleteTranscoder inStreamId outStreamId inBackend outBackend)

end Audio

end SatComm
