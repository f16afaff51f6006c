import SatComm.Runs.Basic
import SatComm.Runs.Maps

/-!
# The requests of the audio library

An object of the library, the audio manager or a stream, numbers its requests. Under the number its
`CommandCallbackManager` keeps the callback of the application, and the client of the server the
interface that is to be told. The result of a request comes with its number. When the service
becomes unavailable the callbacks are dropped and the numbers start again, but results of older
requests may still be on their way.
-/

namespace SatComm

namespace Commands

open Assoc

/-- The requests that are answered for the object that makes them. Those that carry samples and
`deleteTranscoder` are left out, and `playDtmfTone`, which sends no stream and so is answered for the
stream 0, is not made. -/
inductive Operation
  | getDevices | getStreamTypes | getCalibrationInitStatus | createStream | deleteStream
  | createTranscoder | startAudio | stopAudio | setDevice | getDevice | setVolume | getVolume
  | setMute | getMute | stopDtmfTone | playTone | stopTone | flush | drain
deriving DecidableEq, Repr

/-- The interfaces of `IAudioCallBacks.hpp`. -/
inductive Listener
  | getDevices | getStreams | getCalInitStatus | createStream | deleteStream | transcodeCreate
  | startStream | stopStream | setGetDevice | setGetVolume | setGetMute | dtmf | tone | flush | drain
deriving DecidableEq, Repr

/-- What a callback of the application takes besides the error code. -/
inductive Arguments
  | none | devices | streamTypes | calInitStatus | stream | transcoder | deviceTypes | volume | mute
deriving DecidableEq, Repr

/-- The interface that the client casts to when the result comes. -/
def Operation.listener : Operation → Listener
  | getDevices => .getDevices
  | getStreamTypes => .getStreams
  | getCalibrationInitStatus => .getCalInitStatus
  | createStream => .createStream
  | deleteStream => .deleteStream
  | createTranscoder => .transcodeCreate
  | startAudio => .startStream
  | stopAudio => .stopStream
  | setDevice => .setGetDevice
  | getDevice => .setGetDevice
  | setVolume => .setGetVolume
  | getVolume => .setGetVolume
  | setMute => .setGetMute
  | getMute => .setGetMute
  | stopDtmfTone => .dtmf
  | playTone => .tone
  | stopTone => .tone
  | flush => .flush
  | drain => .drain

def Operation.arguments : Operation → Arguments
  | getDevices => .devices
  | getStreamTypes => .streamTypes
  | getCalibrationInitStatus => .calInitStatus
  | createStream => .stream
  | createTranscoder => .transcoder
  | getDevice => .deviceTypes
  | getVolume => .volume
  | getMute => .mute
  | _ => .none

/-- Without a callback these are refused at once. -/
def Operation.required : Operation → Bool
  | getCalibrationInitStatus => true
  | createStream => true
  | createTranscoder => true
  | _ => false

abbrev INVALID_COMMAND_ID : Int := -1

/-- `commandId_++` of an `int`. -/
def increment (commandId : Int) : Int :=
  if commandId = 2147483647 then -2147483648 else commandId + 1

def getNextCommandId (commandId : Int) : Int :=
  if increment commandId = INVALID_COMMAND_ID ∨ increment commandId = 0 then
    increment (increment commandId)
  else increment commandId

/-- A value of the map can be the null pointer. -/
structure CommandCallbackManager (α : Type) where
  commandId : Int
  funCallbackMap : Map Int (Option α)
deriving DecidableEq

namespace CommandCallbackManager

variable {α : Type}

def new : CommandCallbackManager α := ⟨0, Map.empty⟩

def addCallback (m : CommandCallbackManager α) (callback : Option α) :
    CommandCallbackManager α × Int :=
  let cmdId := getNextCommandId m.commandId
  (⟨cmdId, m.funCallbackMap.set cmdId callback⟩, cmdId)

def findAndRemoveCallback (m : CommandCallbackManager α) (cmdId : Int) :
    CommandCallbackManager α × Option α :=
  if cmdId < 0 then (m, none)
  else
    match m.funCallbackMap.get? cmdId with
    | some callback => ({ m with funCallbackMap := m.funCallbackMap.erase cmdId }, callback)
    | none => (m, none)

def reset (_ : CommandCallbackManager α) : CommandCallbackManager α := new

end CommandCallbackManager

/-- A callback, with the number of the request that it was passed with. -/
structure Callback where
  serial : Nat
  op : Operation
deriving DecidableEq, Repr

structure Request where
  /-- The requests before it, and how often the service had become unavailable. -/
  serial : Nat
  epoch : Nat
  op : Operation
  callback : Bool
  cmdId : Int
deriving DecidableEq, Repr

namespace Request

def passed (r : Request) : Callback := ⟨r.serial, r.op⟩

/-- The callback of `getStreamTypes` is added twice. -/
def doubled (r : Request) : Bool := r.callback && r.op = .getStreamTypes

/-- The numbers under which the request added callbacks. -/
def Numbers (r : Request) (k : Int) : Prop :=
  (r.callback = true ∨ r.op = .getStreamTypes) ∧ k = r.cmdId ∨
    r.doubled = true ∧ k = r.cmdId - 1

end Request

/-- An object of the library with the entries that the client has for it. -/
structure Client where
  cmdCallbackMgr : CommandCallbackManager Callback
  callbackMap : Map Int Operation
  /-- The requests that are not answered. -/
  sent : List Request
  /-- All requests, and how often the service became unavailable. -/
  asked : List Request
  epoch : Nat
  /-- The callbacks that were executed, each with the request whose result it got. -/
  executed : List (Nat × Nat)
deriving DecidableEq

inductive Label
  | request (op : Operation) (callback : Bool)
  /-- The server does not accept a request. -/
  | refuse (i : Nat)
  | result (i : Nat)
  /-- The service becomes unavailable. -/
  | reset
deriving DecidableEq, Repr

/-- The callback is added where there is one, and by `getStreamTypes` whether there is one or not. -/
def register (m : CommandCallbackManager Callback) (op : Operation) (callback : Option Callback) :
    CommandCallbackManager Callback × Int :=
  let first := if callback.isSome then m.addCallback callback else (m, INVALID_COMMAND_ID)
  if op = .getStreamTypes then first.1.addCallback callback else first

namespace Client

def new : Client := ⟨.new, Map.empty, [], [], 0, []⟩

def request (c : Client) (op : Operation) (callback : Bool) : Client :=
  if op.required && !callback then c
  else
    let serial := c.asked.length
    let r := register c.cmdCallbackMgr op (if callback then some ⟨serial, op⟩ else none)
    let request : Request := ⟨serial, c.epoch, op, callback, r.2⟩
    { c with
      cmdCallbackMgr := r.1
      callbackMap := c.callbackMap.set r.2 op
      sent := c.sent ++ [request]
      asked := c.asked ++ [request] }

def refuse (c : Client) (r : Request) : Client :=
  { c with
    callbackMap := c.callbackMap.erase r.cmdId
    cmdCallbackMgr :=
      if r.callback then (c.cmdCallbackMgr.findAndRemoveCallback r.cmdId).1 else c.cmdCallbackMgr }

/-- What is called is not what the interface, or the type of the callback, says: undefined. -/
def result (c : Client) (r : Request) : Option Client :=
  match c.callbackMap.get? r.cmdId with
  | none => some c
  | some op =>
    if op.listener = r.op.listener then
      let found := c.cmdCallbackMgr.findAndRemoveCallback r.cmdId
      let told := { c with
        cmdCallbackMgr := found.1
        callbackMap := c.callbackMap.erase r.cmdId }
      match found.2 with
      | some callback =>
        if callback.op.arguments = r.op.arguments then
          some { told with executed := c.executed ++ [(callback.serial, r.serial)] }
        else none
      | none => some told
    else none

def step (c : Client) : Label → Option Client
  | .request op callback => some (c.request op callback)
  | .refuse i =>
    match c.sent[i]? with
    | some r => some ({ c with sent := c.sent.eraseIdx i }.refuse r)
    | none => none
  | .result i =>
    match c.sent[i]? with
    | some r => { c with sent := c.sent.eraseIdx i }.result r
    | none => none
  | .reset => some { c with cmdCallbackMgr := c.cmdCallbackMgr.reset, epoch := c.epoch + 1 }

/-- The numbers do not overflow. -/
def Bounded (c : Client) : Label → Prop
  | .request _ _ => c.cmdCallbackMgr.commandId < 2147483646
  | _ => True

/-- Nothing is requested while results from before the service went are on their way. -/
def Paced (c : Client) : Label → Prop
  | .request _ _ => c.cmdCallbackMgr.commandId < 2147483646 ∧ ∀ r ∈ c.sent, r.epoch = c.epoch
  | _ => True

instance (c : Client) : ∀ l, Decidable (c.Bounded l)
  | .request _ _ => inferInstanceAs (Decidable (_ < _))
  | .refuse _ => inferInstanceAs (Decidable True)
  | .result _ => inferInstanceAs (Decidable True)
  | .reset => inferInstanceAs (Decidable True)

instance (c : Client) : ∀ l, Decidable (c.Paced l)
  | .request _ _ => inferInstanceAs (Decidable (_ ∧ _))
  | .refuse _ => inferInstanceAs (Decidable True)
  | .result _ => inferInstanceAs (Decidable True)
  | .reset => inferInstanceAs (Decidable True)

end Client

end Commands

end SatComm
