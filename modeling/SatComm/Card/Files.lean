import SatComm.Codes.Headed
import SatComm.Tel.Redial

/-!
# The files of a SIM card

A card has files under its applications and under the DF. The linear fixed files of a directory are
in one array, each as an entry with the number of its records and these records; a transparent file
is one entry. A request names an application, and the DF if there is no such application.
-/

namespace SatComm

namespace Card

namespace Files

open Codes (decimal)
open Headed
open Tel (convertIntVectorToString convertStringToVector)

inductive Status
  | success
  | other (value : Int)
deriving DecidableEq, Repr

inductive ErrorCode
  | success
  | genericFailure
  | other (value : Int)
deriving DecidableEq, Repr

/-- What the configuration file gives for a request. -/
structure ApiConfigure where
  status : Status
  error : ErrorCode
  delay : Int
  isCallback : Bool
deriving DecidableEq, Repr

/-- An object of an array. A member that is not there reads as 0 or as empty. -/
structure Entry where
  fileId : Int
  numberOfRecords : Int
  sw1 : Int
  sw2 : Int
  data : List Char
  payload : List Char
deriving DecidableEq, Repr

/-- What is read behind the end of an array. -/
def Entry.null : Entry := ⟨0, 0, 0, 0, [], []⟩

/-- The file id as a `uint16_t`. -/
def Entry.id (e : Entry) : UInt16 := UInt16.ofInt e.fileId

structure Adf where
  appId : String
  linearFixedEFFiles : List Entry
  transparentEFFiles : List Entry
deriving DecidableEq, Repr

/-- The state of the card in one slot. A request is for one slot and leaves the other card alone. -/
structure CardState where
  adf : List Adf
  dfLinearFixedEFRecords : List Entry
  dfTransparentEFRecords : List Entry
deriving DecidableEq, Repr

structure IccResult where
  sw1 : Int
  sw2 : Int
  payload : List Char
  data : List Int
deriving DecidableEq, Repr

/-- What stands in a result that was not set; `sw1` and `sw2` are not initialized. -/
def IccResult.unset : IccResult := ⟨0, 0, [], []⟩

structure Reply where
  error : ErrorCode
  status : Status
  delay : Int
  isCallback : Bool
  result : IccResult
deriving DecidableEq, Repr

structure ReadEFLinearFixedAllReply where
  error : ErrorCode
  status : Status
  delay : Int
  isCallback : Bool
  records : List IccResult
deriving DecidableEq, Repr

structure ReadEFLinearFixedRequest where
  fileId : Int
  recordNumber : Int
  aid : String
  api : ApiConfigure
deriving DecidableEq, Repr

structure WriteEFLinearFixedRequest where
  fileId : Int
  recordNumber : Int
  data : List Int
  aid : String
  api : ApiConfigure
deriving DecidableEq, Repr

structure ReadEFLinearFixedAllRequest where
  fileId : Int
  aid : String
  api : ApiConfigure
deriving DecidableEq, Repr

structure ReadEFTransparentRequest where
  fileId : Int
  size : Int
  aid : String
  api : ApiConfigure
deriving DecidableEq, Repr

structure WriteEFTransparentRequest where
  fileId : Int
  data : List Int
  aid : String
  api : ApiConfigure
deriving DecidableEq, Repr

/-! ## Texts -/

/-- The data of a request as a vector of `uint8_t`. -/
def bytes (data : List Int) : List UInt8 := data.map UInt8.ofInt

/-- `CommonUtils::convertVectorToString`. -/
def convertVectorToString (data : List UInt8) (toHex : Bool) : List Char :=
  data.flatMap fun b => if toHex then Nat.toDigits 16 b.toNat else decimal b.toNat ++ [' ']

def Entry.write (e : Entry) (data : List UInt8) : Entry :=
  { e with data := convertVectorToString data false, payload := convertVectorToString data true }

def Entry.result (e : Entry) : IccResult :=
  ⟨e.sw1, e.sw2, e.payload, convertStringToVector e.data⟩

/-- What a reply has of a result. -/
def IccResult.answered (result : IccResult) (error : ErrorCode) : IccResult :=
  if error = .success then result else { IccResult.unset with data := result.data }

def ApiConfigure.reply (api : ApiConfigure) (error : ErrorCode) (result : IccResult) : Reply :=
  ⟨error, api.status, api.delay, api.isCallback, result.answered error⟩

/-! ## Arrays -/

/-- An entry of an array; a negative index throws. -/
def at? (entries : List Entry) (i : Int) : Option Entry :=
  if i < 0 then none else some (entries.getD i.toNat Entry.null)

/-- Assign to an index; the array grows up to it. -/
def put (entries : List Entry) (i : ℕ) (e : Entry) : List Entry :=
  (entries ++ List.replicate (i + 1 - entries.length) Entry.null).set i e

/-- The walk over the linear fixed files. It comes to an index at most once if it ends. -/
def walkFiles (entries : List Entry) (fileId : UInt16) : Option (Option Entry × Int) :=
  walk Entry.numberOfRecords Entry.id fileId entries entries.length 0

def findmatchingrecord (entries : List Entry) (recordNum : Int) (fileId : UInt16) :
    Option (ErrorCode × Int) :=
  (walkFiles entries fileId).map fun
    | (some e, i) => (if recordNum ≤ e.numberOfRecords then .success else .genericFailure, i)
    | (none, i) => (if i = entries.length then .genericFailure else .success, i)

/-- Records of an array from an index on. -/
def results (entries : List Entry) (i : ℕ) (num : Int) : List IccResult :=
  (List.range num.toNat).map fun j => (entries.getD (i + j) Entry.null).result

/-- The loop of `WriteEFTransparent` over the files of an application: where the file is, and the
error. -/
def searchADF (fileId : UInt16) (error : ErrorCode) : ℕ → List Entry → Option ℕ × ErrorCode
  | _, [] => (none, .genericFailure)
  | i, e :: es => if e.id = fileId then (some i, error) else searchADF fileId error (i + 1) es

/-- The same loop over the files of the DF, where every other file leaves an error behind. -/
def searchDF (fileId : UInt16) (error : ErrorCode) : ℕ → List Entry → Option ℕ × ErrorCode
  | _, [] => (none, .genericFailure)
  | i, e :: es =>
    if e.id = fileId then (some i, error) else searchDF fileId .genericFailure (i + 1) es

namespace CardState

/-! ## Directories -/

/-- The source compares through the `c_str` of an `AppId` that is gone by then; here it is the text
that the string had. -/
def findAppId (c : CardState) (appid : String) : Option ℕ :=
  c.adf.findIdx? fun adf => adf.appId = appid

/-- The linear fixed files under an application, or under the DF. -/
def linearFixed (c : CardState) : Option ℕ → List Entry
  | some index => (c.adf[index]?).elim [] Adf.linearFixedEFFiles
  | none => c.dfLinearFixedEFRecords

def transparent (c : CardState) : Option ℕ → List Entry
  | some index => (c.adf[index]?).elim [] Adf.transparentEFFiles
  | none => c.dfTransparentEFRecords

def setLinearFixed (c : CardState) (directory : Option ℕ) (entries : List Entry) : CardState :=
  match directory with
  | some index =>
    { c with adf := c.adf.modify index fun adf => { adf with linearFixedEFFiles := entries } }
  | none => { c with dfLinearFixedEFRecords := entries }

def setTransparent (c : CardState) (directory : Option ℕ) (entries : List Entry) : CardState :=
  match directory with
  | some index =>
    { c with adf := c.adf.modify index fun adf => { adf with transparentEFFiles := entries } }
  | none => { c with dfTransparentEFRecords := entries }

def findmatchingrecordADF (c : CardState) (index : ℕ) (recordNum : Int) (fileId : UInt16) :
    Option (ErrorCode × Int) :=
  findmatchingrecord (c.linearFixed (some index)) recordNum fileId

def findmatchingrecordDF (c : CardState) (recordNum : Int) (fileId : UInt16) :
    Option (ErrorCode × Int) :=
  findmatchingrecord (c.linearFixed none) recordNum fileId

def findmatchingrecordIn (c : CardState) (directory : Option ℕ) (recordNum : Int)
    (fileId : UInt16) : Option (ErrorCode × Int) :=
  match directory with
  | some index => c.findmatchingrecordADF index recordNum fileId
  | none => c.findmatchingrecordDF recordNum fileId

/-! ## Requests -/

/-- `none` where the call throws or does not return. -/
def readEFLinearFixed (c : CardState) (request : ReadEFLinearFixedRequest) : Option Reply :=
  let api := request.api
  let directory := c.findAppId request.aid
  if api.status ≠ .success then some (api.reply api.error IccResult.unset)
  else
    (c.findmatchingrecordIn directory request.recordNumber (.ofInt request.fileId)).bind fun
      | (.success, i) =>
        (at? (c.linearFixed directory) (i + request.recordNumber)).map fun e =>
          api.reply api.error e.result
      | _ => some (api.reply .genericFailure IccResult.unset)

/-- The delay of the reply is not set. -/
def writeEFLinearFixed (c : CardState) (request : WriteEFLinearFixedRequest) :
    Option (CardState × Reply) :=
  let api := { request.api with delay := 0 }
  let directory := c.findAppId request.aid
  let entries := c.linearFixed directory
  if api.status ≠ .success then some (c, api.reply api.error IccResult.unset)
  else
    (c.findmatchingrecordIn directory request.recordNumber (.ofInt request.fileId)).bind fun
      | (.success, i) =>
        (at? entries (i + request.recordNumber)).map fun e =>
          (c.setLinearFixed directory
              (put entries (i + request.recordNumber).toNat (e.write (bytes request.data))),
            api.reply api.error ⟨e.sw1, e.sw2, [], []⟩)
      | _ => some (c, api.reply .genericFailure IccResult.unset)

/-- `ReadEFLinearFixedAll` walks over the files of an application itself: the records, and whether
the file was found. -/
def readAllADF (c : CardState) (index : ℕ) (fileId : UInt16) : Option (List IccResult × Bool) :=
  let entries := c.linearFixed (some index)
  (walkFiles entries fileId).map fun
    | (some e, i) => (results entries (i.toNat + 1) e.numberOfRecords, true)
    | (none, i) => ([], i ≠ entries.length)

/-- Under the DF the records are read from the front of the array. -/
def readAllDF (c : CardState) (fileId : UInt16) : Option (List IccResult × Bool) :=
  let entries := c.linearFixed none
  (c.findmatchingrecordDF 0 fileId).map fun
    | (.success, i) => (results entries 1 (entries.getD i.toNat Entry.null).numberOfRecords, true)
    | _ => ([], false)

def readAllIn (c : CardState) (directory : Option ℕ) (fileId : UInt16) :
    Option (List IccResult × Bool) :=
  match directory with
  | some index => c.readAllADF index fileId
  | none => c.readAllDF fileId

def readEFLinearFixedAll (c : CardState) (request : ReadEFLinearFixedAllRequest) :
    Option ReadEFLinearFixedAllReply :=
  let api := request.api
  let reply (error : ErrorCode) (records : List IccResult) : ReadEFLinearFixedAllReply :=
    ⟨error, api.status, api.delay, api.isCallback, records.map fun r => r.answered error⟩
  if api.status ≠ .success then some (reply api.error [])
  else
    (c.readAllIn (c.findAppId request.aid) (.ofInt request.fileId)).map fun p =>
      reply (if p.2 then api.error else .genericFailure) p.1

def readEFTransparent (c : CardState) (request : ReadEFTransparentRequest) : Reply :=
  let api := request.api
  let fileId : UInt16 := .ofInt request.fileId
  if api.status ≠ .success then api.reply api.error IccResult.unset
  else
    match (c.transparent (c.findAppId request.aid)).find? fun e =>
        e.id = fileId ∧ 0 ≤ request.size with
    | some e => api.reply api.error e.result
    | none => api.reply .genericFailure IccResult.unset

def writeEFTransparent (c : CardState) (request : WriteEFTransparentRequest) : CardState × Reply :=
  let api := request.api
  let directory := c.findAppId request.aid
  let entries := c.transparent directory
  let search := match directory with
    | some _ => searchADF (.ofInt request.fileId) api.error 0 entries
    | none => searchDF (.ofInt request.fileId) api.error 0 entries
  if api.status ≠ .success then (c, api.reply api.error IccResult.unset)
  else
    match search with
    | (some i, error) =>
      let e := entries.getD i Entry.null
      (c.setTransparent directory (entries.set i (e.write (bytes request.data))),
        api.reply error ⟨e.sw1, e.sw2, [], []⟩)
    | (none, error) => (c, api.reply error IccResult.unset)

end CardState

end Files

end Card

end SatComm
