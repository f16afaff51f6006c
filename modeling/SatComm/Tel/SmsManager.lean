import Mathlib
import SatComm.Runs.Along

/-!
# The stored messages of a SIM slot

`SmsManagerServerImpl` keeps the messages of a slot in the array `SmsDatabaseStorage`. An incoming
message gets its index from `getNewSmsIndex`, is appended and then moved to the place that has
this index as its position. Messages are deleted by their positions, one after the other.

The file and the copy of it in memory are written together and are one here.
-/

namespace SatComm

namespace Tel

inductive SmsTagType
  | unknown | mtRead | mtNotRead
deriving DecidableEq, Repr

inductive DeleteType
  | unknown | deleteAll | deleteMessagesByTag | deleteMsgAtIndex
deriving DecidableEq, Repr

inductive StorageType
  | unknown | none | sim
deriving DecidableEq, Repr

/-- What an event tells of an incoming message, with the receiver from the subscription. -/
structure IncomingSms where
  text : String
  sender : String
  receiver : String
  encoding : String
  pdu : String
  refNumber : Int
  segmentNumber : Int
  numberOfSegments : Int
  isMetaInfoValid : Bool
deriving DecidableEq, Repr

/-- A message of the array. The index is a `uint32_t` of the interface. -/
structure Sms where
  text : String
  sender : String
  receiver : String
  encoding : String
  rawPdu : String
  pdu : String
  refNumber : Int
  segmentNumber : Int
  numberOfSegments : Int
  isMetaInfoValid : Bool
  msgIndex : Nat
  tagType : String
deriving DecidableEq, Repr

/-- The greatest number of messages; `asInt` reads it from the configuration. -/
structure StorageLimit where
  maxCount : Nat
  maxCount_lt : maxCount < 2 ^ 31

def getTagType (tagType : String) : SmsTagType :=
  if tagType = "MT_READ" then .mtRead
  else if tagType = "MT_NOT_READ" then .mtNotRead
  else .unknown

def tagTypeToString : SmsTagType → String
  | .mtRead => "MT_READ"
  | .mtNotRead => "MT_NOT_READ"
  | .unknown => "UNKNOWN"

namespace SmsManager

/-- The loop of `getNewSmsIndex`: the index after the first message whose neighbour has another. -/
def firstGap : List Sms → Option Nat
  | current :: next :: rest =>
    if next.msgIndex ≠ current.msgIndex + 1 then some (current.msgIndex + 1)
    else firstGap (next :: rest)
  | _ => none

/-- The index of an element that is not there reads as 0. -/
def getNewSmsIndex (store : List Sms) : Nat :=
  if (store.head?.map Sms.msgIndex).getD 0 = 0 then (firstGap store).getD store.length else 0

/-- The loop of `sortDatabase`, from the position `i` down. -/
def shift (index : Nat) : Nat → List Sms → List Sms
  | 0, store => store
  | i + 1, store =>
    if i + 1 > index then
      shift index i (match store[i]? with
        | some sms => store.set (i + 1) sms
        | none => store)
    else store

def sortDatabase (store : List Sms) (newSms : Sms) (index : Nat) : List Sms :=
  if index + 1 > store.length then store
  else (shift index (store.length - 1) store).set index newSms

/-- `maxCount - size`, as `uint32_t` values. -/
def availableCount (maxCount size : Nat) : Nat := (maxCount + (2 ^ 32 - size % 2 ^ 32)) % 2 ^ 32

def newSms (incoming : IncomingSms) (msgIndex : Nat) : Sms where
  text := incoming.text
  sender := incoming.sender
  receiver := incoming.receiver
  encoding := incoming.encoding
  rawPdu := incoming.pdu
  pdu := incoming.pdu
  refNumber := incoming.refNumber
  segmentNumber := incoming.segmentNumber
  numberOfSegments := incoming.numberOfSegments
  isMetaInfoValid := incoming.isMetaInfoValid
  msgIndex := msgIndex
  tagType := "MT_NOT_READ"

/-- `storage` is the preferred storage at the time. -/
def handleIncomingSms (limit : StorageLimit) (store : List Sms) (storage : StorageType)
    (incoming : IncomingSms) : List Sms :=
  let sms := newSms incoming (getNewSmsIndex store)
  if storage = .sim then
    if availableCount limit.maxCount store.length > 0 then
      sortDatabase (store ++ [sms]) sms sms.msgIndex
    else store
  else store

/-- The positions of the messages with the tag, each less the number of those before it. -/
def indexsToDelete (tagType : SmsTagType) : List Sms → Nat → Nat → List Nat
  | [], _, _ => []
  | sms :: rest, i, adjust =>
    if getTagType sms.tagType = tagType then
      (i - adjust) :: indexsToDelete tagType rest (i + 1) (adjust + 1)
    else indexsToDelete tagType rest (i + 1) adjust

/-- Every turn copies the array without the position. -/
def deletedSmsatIndex (store : List Sms) (index : List Nat) : List Sms :=
  index.foldl List.eraseIdx store

/-- `configured` tells whether the configuration lets the request go on. -/
def deleteMessage (store : List Sms) (configured : Bool) (deleteType : DeleteType)
    (tagType : SmsTagType) (messageIndex : Nat) : List Sms :=
  if configured then
    match deleteType with
    | .deleteMessagesByTag => deletedSmsatIndex store (indexsToDelete tagType store 0 0)
    | .deleteMsgAtIndex =>
      deletedSmsatIndex store (store.findIdx? fun sms => sms.msgIndex == messageIndex).toList
    | .deleteAll => []
    | .unknown => store
  else store

/-- The request is refused where the index is greater than the number of messages. -/
def setTag (store : List Sms) (configured : Bool) (messageIndex : Nat) (tagType : SmsTagType) :
    List Sms :=
  if configured then
    if messageIndex > store.length then store
    else store.map fun sms =>
      if sms.msgIndex = messageIndex then { sms with tagType := tagTypeToString tagType } else sms
  else store

inductive Event
  | incomingSms (storage : StorageType) (incoming : IncomingSms)
  | deleteMessage (configured : Bool) (deleteType : DeleteType) (tagType : SmsTagType)
      (messageIndex : Nat)
  | setTag (configured : Bool) (messageIndex : Nat) (tagType : SmsTagType)
deriving DecidableEq, Repr

def step (limit : StorageLimit) (store : List Sms) : Event → List Sms
  | .incomingSms storage incoming => handleIncomingSms limit store storage incoming
  | .deleteMessage configured deleteType tagType messageIndex =>
    deleteMessage store configured deleteType tagType messageIndex
  | .setTag configured messageIndex tagType => setTag store configured messageIndex tagType

end SmsManager

end Tel

end SatComm
