import SatComm.Player.Samples

/-!
# Volume, mute state and devices

Each of these attributes of the playback is kept in a cache of the player and on the audio stream.
`setVolume`, `setMute` and `setDevice` write the cache when no stream is open; else they ask the
server, release `streamMtx_` while they wait for the answer, and write the cache when it has come.
When the player thread opens a stream it sets the attributes on it that are in the cache, one after
the other, and waits for each answer.

The three attributes are handled alike and have one definition. The level that is set is that of
every channel of the stream. A call whose stream is gone when the server gets to it fails.

The player thread does not wait for the creation and the deletion of a stream whatever happens: the
wait ends with the answer, after ten seconds, when the service goes away, or when the application
has asked to stop. `deinitAudioStream` returns early then, before it clears `isStreamOpened_`, and
always does so after `stopPlayback`, as its wait is over before it begins. The answer comes later,
when no one waits for it or someone who waits for another one.
-/

namespace SatComm

namespace Player

namespace Attributes

/-- A request to set an attribute of a stream. -/
structure Call (α : Type) where
  value : α
  stream : Nat
  /-- The caller does not wait for it any more. -/
  cancelled : Bool
deriving DecidableEq, Repr

/-- One attribute, for the player and for the server. -/
structure Attribute (α : Type) where
  /-- The value in the cache, if it was ever set. -/
  cache : Option α
  /-- The value on the player's stream. -/
  inForce : α
  /-- The requests of `set…` that are not answered, and those that are answered and have not
  returned, in the order of the answers. -/
  waiting : List (Call α)
  answered : List (Call α)
  /-- The request of the player thread that is not answered, and its stream. -/
  reapplying : Option (α × Nat)
  /-- The player thread has decided for this stream whether to set the attribute. -/
  decided : Bool
  /-- The value of the last call that returned `SUCCESS`. -/
  last : Option α
deriving DecidableEq, Repr

namespace Attribute

variable {α : Type}

/-- Never set, on no stream. -/
def initial (value : α) : Attribute α where
  cache := none
  inForce := value
  waiting := []
  answered := []
  reapplying := none
  decided := false
  last := none

/-- `set…` without a stream. -/
def store (a : Attribute α) (value : α) : Attribute α :=
  { a with cache := some value, last := some value }

/-- `set…` with a stream, up to the wait. -/
def request (a : Attribute α) (value : α) (stream : Nat) : Attribute α :=
  { a with waiting := a.waiting ++ [⟨value, stream, false⟩] }

/-- The server sets the value on a stream. -/
def put (a : Attribute α) (opened : List Nat) (current stream : Nat) (value : α) : Attribute α :=
  if stream ∈ opened ∧ stream = current then { a with inForce := value } else a

@[simp] theorem put_cache (a : Attribute α) (opened : List Nat) (current stream : Nat) (value : α) :
    (a.put opened current stream value).cache = a.cache := by
  unfold put
  split <;> rfl

@[simp] theorem put_waiting (a : Attribute α) (opened : List Nat) (current stream : Nat)
    (value : α) : (a.put opened current stream value).waiting = a.waiting := by
  unfold put
  split <;> rfl

@[simp] theorem put_answered (a : Attribute α) (opened : List Nat) (current stream : Nat)
    (value : α) : (a.put opened current stream value).answered = a.answered := by
  unfold put
  split <;> rfl

@[simp] theorem put_reapplying (a : Attribute α) (opened : List Nat) (current stream : Nat)
    (value : α) : (a.put opened current stream value).reapplying = a.reapplying := by
  unfold put
  split <;> rfl

@[simp] theorem put_decided (a : Attribute α) (opened : List Nat) (current stream : Nat)
    (value : α) : (a.put opened current stream value).decided = a.decided := by
  unfold put
  split <;> rfl

@[simp] theorem put_last (a : Attribute α) (opened : List Nat) (current stream : Nat) (value : α) :
    (a.put opened current stream value).last = a.last := by
  unfold put
  split <;> rfl

theorem put_eq_self {a : Attribute α} {opened : List Nat} {current stream : Nat} {value : α}
    (h : ¬ (stream ∈ opened ∧ stream = current)) : a.put opened current stream value = a :=
  if_neg h

/-- The server gets to the request at this position; `current` is the player's stream. -/
def answer (a : Attribute α) (opened : List Nat) (current i : Nat) : Option (Attribute α) :=
  match a.waiting[i]? with
  | none => none
  | some c =>
    let rest := { a with waiting := a.waiting.eraseIdx i }
    let a := rest.put opened current c.stream c.value
    if c.stream ∈ opened ∧ c.cancelled = false then
      some { a with answered := a.answered ++ [c] }
    else some a

/-- The call with the answer at this position goes on after its wait and returns `SUCCESS`. -/
def finish (a : Attribute α) (i : Nat) : Option (Attribute α) :=
  match a.answered[i]? with
  | none => none
  | some c => some { a with
      answered := a.answered.eraseIdx i
      cache := some c.value
      last := some c.value }

/-- A request to stop or the time-out ends the wait of a call that is not answered, or of one that
is: it returns an error. -/
def cancelWaiting (a : Attribute α) (i : Nat) : Option (Attribute α) :=
  match a.waiting[i]? with
  | none => none
  | some c => some { a with waiting := a.waiting.set i { c with cancelled := true } }

def cancelAnswered (a : Attribute α) (i : Nat) : Option (Attribute α) :=
  if i < a.answered.length then some { a with answered := a.answered.eraseIdx i } else none

/-- A new stream, with the value that it has by itself. -/
def openStream (a : Attribute α) (value : α) : Attribute α :=
  { a with inForce := value, decided := false }

/-- The player thread sets what is in the cache, if it has to. -/
def decide (a : Attribute α) (hasToBeSet : α → Bool) (stream : Nat) : Attribute α :=
  { a with
    decided := true
    reapplying := (a.cache.filter hasToBeSet).map fun value => (value, stream) }

/-- The server gets to the request of the player thread. -/
def reapply (a : Attribute α) (opened : List Nat) (current : Nat) : Option (Attribute α) :=
  match a.reapplying with
  | none => none
  | some (value, stream) =>
    let a := { a with reapplying := none }
    some (a.put opened current stream value)

end Attribute

/-- What a client, the server or the clock does to one attribute. -/
inductive Event (α : Type)
  | set (value : α)
  | answer (i : Nat)
  | finish (i : Nat)
  | cancelWaiting (i : Nat)
  | cancelAnswered (i : Nat)
  | reapply
deriving DecidableEq, Repr

inductive DeviceType
  | none
  | device (type : Nat)
deriving DecidableEq, Repr

/-- The part of a stream configuration that concerns the devices. -/
structure StreamConfig where
  deviceTypes : List DeviceType
  hasVoicePaths : Bool
deriving DecidableEq, Repr

inductive Kind
  | volume | mute | device
deriving DecidableEq, Repr

/-- Where the player thread is. -/
inductive Thread
  /-- It has no stream, or has given it up. -/
  | closed
  | creating (config : StreamConfig)
  /-- The answer has come, and the player thread has not woken up. -/
  | created (config : StreamConfig)
  /-- It waits for the answer to its request to set the attribute. -/
  | applying (kind : Kind)
  | opened
  | deleting
  /-- A deletion is answered, and the player thread has not woken up. -/
  | deleted
deriving DecidableEq, Repr

structure State (Level : Type) where
  isPlayInProgress : Bool
  thread : Thread
  isStreamOpened : Bool
  /-- The stream of the player, by its number. -/
  audioPlayStream : Nat
  /-- The streams that are open at the server. -/
  opened : List Nat
  /-- The requests for new streams and to delete streams that are not answered. -/
  creations : List StreamConfig
  deletions : List Nat
  lastUsedDevices : List DeviceType
  volume : Attribute Level
  mute : Attribute Bool
  device : Attribute (List DeviceType)
deriving DecidableEq, Repr

/-- What is a volume level, and the system's default. -/
structure Levels (Level : Type) where
  inRange : Level → Bool
  default : Level

variable {Level : Type}

def initial (levels : Levels Level) : State Level where
  isPlayInProgress := false
  thread := .closed
  isStreamOpened := false
  audioPlayStream := 0
  opened := []
  creations := []
  deletions := []
  lastUsedDevices := []
  volume := .initial levels.default
  mute := .initial false
  device := .initial []

namespace State

variable {α : Type}

/-- An event of one attribute; `accepted` is the check that `set…` makes without a stream. -/
def change (s : State Level) (a : Attribute α) (accepted : α → Bool) :
    Event α → Option (Attribute α)
  | .set value =>
    if s.isStreamOpened then some (a.request value s.audioPlayStream)
    else if accepted value then some (a.store value)
    else some a
  | .answer i => a.answer s.opened s.audioPlayStream i
  | .finish i => a.finish i
  | .cancelWaiting i => a.cancelWaiting i
  | .cancelAnswered i => a.cancelAnswered i
  | .reapply => a.reapply s.opened s.audioPlayStream

/-! ## The player thread -/

/-- Only devices that were given are set again. -/
def devicesToBeSet (devices : List DeviceType) : Bool := !devices.isEmpty

/-- Only a mute state that is set has to be set again. -/
def applyMute (s : State Level) : State Level :=
  let mute := s.mute.decide id s.audioPlayStream
  { s with
    mute
    thread := if mute.reapplying.isSome then .applying .mute else .opened }

def applyVolume (s : State Level) : State Level :=
  let s := { s with volume := s.volume.decide (fun _ => true) s.audioPlayStream }
  if s.volume.reapplying.isSome then { s with thread := .applying .volume } else s.applyMute

def applyDevice (s : State Level) : State Level :=
  let s := { s with device := s.device.decide devicesToBeSet s.audioPlayStream }
  if s.device.reapplying.isSome then { s with thread := .applying .device } else s.applyVolume

/-- `createStreamComplete`, for the request at this position: the stream has the level and the
devices that it was created with. Whichever request it is, a player thread that waits goes on. -/
def createStreamComplete (s : State Level) (i : Nat) (level : Level) : Option (State Level) :=
  match s.creations[i]? with
  | none => none
  | some created => some { s with
      thread := match s.thread with
        | .creating config => .created config
        | thread => thread
      isStreamOpened := true
      audioPlayStream := s.audioPlayStream + 1
      opened := s.opened ++ [s.audioPlayStream + 1]
      creations := s.creations.eraseIdx i
      volume := s.volume.openStream level
      mute := s.mute.openStream false
      device := s.device.openStream created.deviceTypes }

/-- `initAudioStream` goes on after a wait. -/
def initAudioStream (s : State Level) : Option (State Level) :=
  match s.thread with
  | .created config =>
    some { s with
      lastUsedDevices := if config.hasVoicePaths then [] else config.deviceTypes }.applyDevice
  | .applying .device => if s.device.reapplying = none then some s.applyVolume else none
  | .applying .volume => if s.volume.reapplying.isNone then some s.applyMute else none
  | .applying .mute =>
    if s.mute.reapplying = none then some { s with thread := .opened } else none
  | _ => none

/-- `deinitAudioStream` up to the wait, also when the stream could not be set up. -/
def deinitAudioStream (s : State Level) : Option (State Level) :=
  match s.thread with
  | .closed | .created _ | .applying _ | .opened =>
    if s.isPlayInProgress ∧ s.isStreamOpened then some { s with
      thread := .deleting
      deletions := s.deletions ++ [s.audioPlayStream] }
    else none
  | _ => none

/-- `deleteStreamComplete`, for the request at this position. A stream that is not open is not
deleted; the player thread that gets an error for an answer gives up. -/
def deleteStreamComplete (s : State Level) (i : Nat) : Option (State Level) :=
  match s.deletions[i]? with
  | none => none
  | some stream =>
    let s := { s with deletions := s.deletions.eraseIdx i }
    if stream ∈ s.opened then some { s with
      thread := if s.thread = .deleting then .deleted else s.thread
      opened := s.opened.erase stream }
    else some s

end State

inductive Step (Level : Type)
  | volume (e : Event Level)
  | mute (e : Event Bool)
  | device (e : Event (List DeviceType))
  | startPlayback
  | createStream (config : StreamConfig)
  | createStreamComplete (i : Nat) (level : Level)
  | initAudioStream
  | deinitAudioStream
  | deleteStreamComplete (i : Nat)
  /-- `deinitAudioStream` goes on after its wait. -/
  | closeStream
  /-- The player thread gives up the stream, or the wait for one: the application has asked to
  stop, the service went away, the wait took too long or its answer was an error. -/
  | giveUp
  /-- The player thread ends without a stream, or having given it up. -/
  | endPlayback
deriving DecidableEq, Repr

def step (levels : Levels Level) (s : State Level) : Step Level → Option (State Level)
  | .volume e => (s.change s.volume levels.inRange e).map fun volume => { s with volume }
  | .mute e => (s.change s.mute (fun _ => true) e).map fun mute => { s with mute }
  | .device e => (s.change s.device (fun _ => true) e).map fun device => { s with device }
  -- `resetState` forgets a stream that was given up.
  | .startPlayback =>
    if s.isPlayInProgress then none
    else some { s with isPlayInProgress := true, isStreamOpened := false }
  | .createStream config =>
    if s.isPlayInProgress ∧ s.thread = .closed then some { s with
      thread := .creating config
      creations := s.creations ++ [config] }
    else none
  | .createStreamComplete i level => s.createStreamComplete i level
  | .initAudioStream => s.initAudioStream
  | .deinitAudioStream => s.deinitAudioStream
  | .deleteStreamComplete i => s.deleteStreamComplete i
  | .closeStream =>
    if s.thread = .deleted then some { s with thread := .closed, isStreamOpened := false }
    else none
  | .giveUp => if s.thread = .closed then none else some { s with thread := .closed }
  | .endPlayback =>
    if s.isPlayInProgress ∧ s.thread = .closed then some { s with isPlayInProgress := false }
    else none

/-! ## What the calls of `get…` return, when nothing is pending

The server cannot be asked about a stream that is deleted.
-/

def State.getVolume (levels : Levels Level) (s : State Level) : Option Level :=
  if s.isStreamOpened then
    if s.audioPlayStream ∈ s.opened then some s.volume.inForce else none
  else some (s.volume.cache.getD levels.default)

def State.getMute (s : State Level) : Bool := s.mute.cache.getD false

def State.getDevice (s : State Level) : Option (List DeviceType) :=
  if s.isStreamOpened then
    if s.audioPlayStream ∈ s.opened then some s.device.inForce else none
  else
    let cachedDevices := s.device.cache.getD []
    if s.lastUsedDevices = [] ∧ cachedDevices = [] then some [.none]
    else if cachedDevices ≠ [] then some cachedDevices
    else some s.lastUsedDevices

end Attributes

end Player

end SatComm
