import SatComm.Runs.Basic
import SatComm.Runs.Maps

/-!
# The data calls of the simulation server

`DataConnectionServerImpl` keeps a cached data call for each profile of a slot. A start is decided
in the request handler and carried out by a deferred task, which takes an interface and caches the
call; a stop takes the call out of the cache in the handler and frees its interface in a task. A
client that exits gives up all its calls at once.

Handlers, tasks and the clean-up are one step each. What a step reads from outside (the configured
results, the address that an interface has, the configuration file) is part of its label. The
pending tasks are taken in any order.
-/

namespace SatComm

namespace Data

inductive IpFamilyType
  | dummy | ipv4 | ipv6 | ipv4v6 | unknown
deriving DecidableEq, Repr

/-- `other` stands for the values that only the configuration gives. -/
inductive Status
  | success | other (code : Int)
deriving DecidableEq, Repr

/-- `other` stands for the codes that only the configuration gives. -/
inductive ErrorCode
  | success | deviceInUse | noEffect | internal | invalidOperation | extendedInternal
  | notSupported | other (code : Int)
deriving DecidableEq, Repr

/-- The configured result of a method. -/
structure ApiResult where
  status : Status
  error : ErrorCode
deriving DecidableEq, Repr

/-- Both the configured and the answered result. -/
abbrev Reply := ApiResult

namespace ApiResult

def Succeeds (data : ApiResult) : Prop := data.status = .success ∧ data.error = .success

instance (data : ApiResult) : Decidable data.Succeeds := inferInstanceAs (Decidable (_ ∧ _))

end ApiResult

def convertIpFamilyEnumToString : IpFamilyType → String
  | .ipv4 => "IPV4"
  | .ipv6 => "IPV6"
  | .ipv4v6 => "IPV4V6"
  | .dummy | .unknown => "Unknown"

structure DataCallParams where
  slotId : Int
  ifaceName : String
  ipFamilyType : String
  v4IpAddress : String
  v6IpAddress : String
  ownersId : Finset Int
deriving DecidableEq

structure DataCallInputParams where
  slotId : Int
  profileId : Int
  ipFamilyType : IpFamilyType
  clientId : Int
  ifaceName : String
deriving DecidableEq, Repr

/-- A queued `triggerStartDataCallEvent`. -/
structure StartTask where
  profileId : Int
  slotId : Int
  ipFamilyType : String
  clientId : Int
  ifaceName : String
deriving DecidableEq, Repr

/-- A queued `triggerStopDataCallEvent`. -/
structure StopTask where
  profileId : Int
  slotId : Int
  ipFamilyType : String
  ifaceName : String
deriving DecidableEq, Repr

abbrev DataCalls := Assoc.Map Int DataCallParams

structure DataConnectionServer where
  dataCallsSlot1 : DataCalls
  dataCallsSlot2 : DataCalls
  activeNwIfaces : List String
  inactiveNwIfaces : List String
  startTasks : List StartTask
  stopTasks : List StopTask
deriving DecidableEq

/-- `isspace` in the C locale. -/
def isSpace (c : Char) : Bool := c = ' ' || (9 ≤ c.toNat && c.toNat ≤ 13)

/-- `getline` up to the delimiter, until nothing is left to read. -/
def getlines (delimiter : Char) : List Char → List Char → List (List Char)
  | [], [] => []
  | line, [] => [line.reverse]
  | line, c :: rest =>
    if c = delimiter then line.reverse :: getlines delimiter [] rest
    else getlines delimiter (c :: line) rest

namespace DataCallParams

/-- What `getIpv4Address` and `getIpv6Address` write, for a family that asks for them. `ipv4` and
`ipv6` are the addresses of the interface, empty where it has none. -/
def getIpAddresses (call : DataCallParams) (ipFamilyType ipv4 ipv6 : String) : DataCallParams :=
  { call with
    v4IpAddress :=
      if (ipFamilyType = "IPV4" ∨ ipFamilyType = "IPV4V6") ∧ ipv4 ≠ "" then ipv4
      else call.v4IpAddress
    v6IpAddress :=
      if (ipFamilyType = "IPV6" ∨ ipFamilyType = "IPV4V6") ∧ ipv6 ≠ "" then ipv6
      else call.v6IpAddress }

/-- `ipv4Supported || ipv6Supported`. -/
def Supported (call : DataCallParams) : Prop := call.v4IpAddress ≠ "" ∨ call.v6IpAddress ≠ ""

instance (call : DataCallParams) : Decidable call.Supported := inferInstanceAs (Decidable (_ ∨ _))

/-- A client becomes an owner, and another family than the call's makes it IPV4V6. -/
def join (call : DataCallParams) (ipFamilyType : String) (clientId : Int) : DataCallParams :=
  { call with
    ipFamilyType := if ipFamilyType ≠ call.ipFamilyType then "IPV4V6" else call.ipFamilyType
    ownersId := insert clientId call.ownersId }

def leave (call : DataCallParams) (clientId : Int) : DataCallParams :=
  { call with ownersId := call.ownersId.erase clientId }

end DataCallParams

namespace DataConnectionServer

def new : DataConnectionServer where
  dataCallsSlot1 := .empty
  dataCallsSlot2 := .empty
  activeNwIfaces := []
  inactiveNwIfaces := []
  startTasks := []
  stopTasks := []

/-- The lookup that the handlers and the start task share. -/
def dataCall? (s : DataConnectionServer) (slotId profileId : Int) : Option DataCallParams :=
  if slotId = 1 then s.dataCallsSlot1.get? profileId
  else if slotId = 2 then s.dataCallsSlot2.get? profileId
  else none

/-- `SLOT_ID_1` has its own map, every other value goes to that of slot 2. -/
def cache (s : DataConnectionServer) (slotId profileId : Int) (call : DataCallParams) :
    DataConnectionServer :=
  if slotId = 1 then { s with dataCallsSlot1 := s.dataCallsSlot1.set profileId call }
  else { s with dataCallsSlot2 := s.dataCallsSlot2.set profileId call }

def uncache (s : DataConnectionServer) (slotId profileId : Int) : DataConnectionServer :=
  if slotId = 1 then { s with dataCallsSlot1 := s.dataCallsSlot1.erase profileId }
  else { s with dataCallsSlot2 := s.dataCallsSlot2.erase profileId }

/-- A name is looked up among the active ones before its spaces are removed. -/
def getInactiveInterfaces (s : DataConnectionServer) (physicalInterfaceName : String) :
    List String :=
  ((getlines ',' [] physicalInterfaceName.toList).map String.ofList).filterMap fun parsedVal =>
    if parsedVal ∈ s.activeNwIfaces then none
    else some (String.ofList (parsedVal.toList.filter fun c => ! isSpace c))

/-- The interface of a new call. -/
def newIface (s : DataConnectionServer) (task : StartTask) : String :=
  if task.ifaceName = "" then s.inactiveNwIfaces.headD "" else task.ifaceName

def newCall (s : DataConnectionServer) (task : StartTask) : DataCallParams where
  slotId := task.slotId
  ifaceName := s.newIface task
  ipFamilyType := task.ipFamilyType
  v4IpAddress := ""
  v6IpAddress := ""
  ownersId := {task.clientId}

/-- The local copy of a new call. -/
def keep (s : DataConnectionServer) (task : StartTask) (call : DataCallParams) :
    DataConnectionServer :=
  { s with
    inactiveNwIfaces := s.inactiveNwIfaces.erase call.ifaceName
    activeNwIfaces := s.activeNwIfaces ++ [call.ifaceName] }.cache task.slotId task.profileId call

/-- `getInactiveInterfaces` at the start of the task. -/
def refresh (s : DataConnectionServer) (task : StartTask) (physicalInterfaceName : String) :
    DataConnectionServer :=
  if task.ifaceName = "" then
    { s with inactiveNwIfaces := s.getInactiveInterfaces physicalInterfaceName }
  else s

def triggerStartDataCallEvent (s : DataConnectionServer) (task : StartTask)
    (physicalInterfaceName ipv4 ipv6 : String) : DataConnectionServer :=
  let s := s.refresh task physicalInterfaceName
  match s.dataCall? task.slotId task.profileId with
  | some call =>
    s.cache task.slotId task.profileId (call.getIpAddresses task.ipFamilyType ipv4 ipv6)
  | none =>
    let call := (s.newCall task).getIpAddresses task.ipFamilyType ipv4 ipv6
    if call.Supported then s.keep task call else s

/-- `allowed` is the answer of `isWwanConnectivityAllowed`. -/
def startResult (s : DataConnectionServer) (request : DataCallInputParams) (data : ApiResult)
    (allowed : Bool) : Reply :=
  { data with
    error :=
      if request.ifaceName ∈ s.activeNwIfaces then .invalidOperation
      else if ! allowed then .notSupported
      else data.error }

def addStartTask (s : DataConnectionServer) (request : DataCallInputParams) :
    DataConnectionServer :=
  { s with
    startTasks := s.startTasks ++
      [⟨request.profileId, request.slotId, convertIpFamilyEnumToString request.ipFamilyType,
        request.clientId, request.ifaceName⟩] }

def startDatacall (s : DataConnectionServer) (request : DataCallInputParams) (data : ApiResult)
    (allowed : Bool) : DataConnectionServer :=
  if (s.startResult request data allowed).Succeeds then
    let ipFamilyType := convertIpFamilyEnumToString request.ipFamilyType
    match s.dataCall? request.slotId request.profileId with
    | some dataCall =>
      let s := s.cache request.slotId request.profileId
        (dataCall.join ipFamilyType request.clientId)
      if ipFamilyType ≠ dataCall.ipFamilyType then s.addStartTask request else s
    | none => s.addStartTask request
  else s

/-- The interface bookkeeping of a stop. -/
def triggerStopDataCallEvent (s : DataConnectionServer) (ifaceName : String) :
    DataConnectionServer :=
  { s with
    inactiveNwIfaces := s.inactiveNwIfaces ++ [ifaceName]
    activeNwIfaces := s.activeNwIfaces.erase ifaceName }

/-- The last owner has left: the call is taken out only if the request names its family. -/
def endCall (s : DataConnectionServer) (request : DataCallInputParams) (dataCall : DataCallParams) :
    DataConnectionServer :=
  let ipFamilyType := convertIpFamilyEnumToString request.ipFamilyType
  let s := if ipFamilyType = dataCall.ipFamilyType then
      s.uncache request.slotId request.profileId
    else s.cache request.slotId request.profileId (dataCall.leave request.clientId)
  { s with
    stopTasks := s.stopTasks ++
      [⟨request.profileId, request.slotId, ipFamilyType, dataCall.ifaceName⟩] }

/-- With owners left the error is set and the status keeps its default. -/
def stopResult (s : DataConnectionServer) (request : DataCallInputParams) (data : ApiResult) :
    Reply :=
  match s.dataCall? request.slotId request.profileId with
  | some dataCall =>
    if data.Succeeds ∧ (dataCall.leave request.clientId).ownersId ≠ ∅ then
      ⟨.success, .deviceInUse⟩
    else data
  | none => data

def stopDatacall (s : DataConnectionServer) (request : DataCallInputParams) (data : ApiResult) :
    DataConnectionServer :=
  if data.Succeeds then
    match s.dataCall? request.slotId request.profileId with
    | some dataCall =>
      if (dataCall.leave request.clientId).ownersId ≠ ∅ then
        s.cache request.slotId request.profileId (dataCall.leave request.clientId)
      else s.endCall request dataCall
    | none => s
  else s

/-- Whether `clearCachedDataCall` stops the call: all are stopped, or the last owner exits. -/
def Ends (stopAllCalls : Bool) (clientId : Int) (call : DataCallParams) : Prop :=
  stopAllCalls ∨ clientId ∈ call.ownersId ∧ (call.leave clientId).ownersId = ∅

instance (stopAllCalls : Bool) (clientId : Int) : DecidablePred (Ends stopAllCalls clientId) :=
  fun _ => inferInstanceAs (Decidable (_ ∨ _ ∧ _))

/-- What stays of a map: the calls that do not end, without the client. -/
def clearCachedDataCall (stopAllCalls : Bool) (clientId : Int) (dataCalls : DataCalls) :
    DataCalls :=
  dataCalls.filterMap fun call =>
    if Ends stopAllCalls clientId call then none else some (call.leave clientId)

/-- The stops of `clearCachedDataCall`, in the order of the map. -/
def stopCalls (stopAllCalls : Bool) (clientId : Int) (dataCalls : DataCalls)
    (s : DataConnectionServer) : DataConnectionServer :=
  (dataCalls.values.filter fun call => Ends stopAllCalls clientId call).foldl
    (fun s call => s.triggerStopDataCallEvent call.ifaceName) s

def clearSlot1 (s : DataConnectionServer) (stopAllCalls : Bool) (clientId : Int) :
    DataConnectionServer :=
  { stopCalls stopAllCalls clientId s.dataCallsSlot1 s with
    dataCallsSlot1 := clearCachedDataCall stopAllCalls clientId s.dataCallsSlot1 }

def clearSlot2 (s : DataConnectionServer) (stopAllCalls : Bool) (clientId : Int) :
    DataConnectionServer :=
  { stopCalls stopAllCalls clientId s.dataCallsSlot2 s with
    dataCallsSlot2 := clearCachedDataCall stopAllCalls clientId s.dataCallsSlot2 }

def cleanUpService (s : DataConnectionServer) (clientId : Int) : DataConnectionServer :=
  (s.clearSlot1 false clientId).clearSlot2 false clientId

/-- The client of the call is the default argument 0. -/
def stopActiveDataCalls (s : DataConnectionServer) (slotId : Int) : DataConnectionServer :=
  if slotId = 1 then s.clearSlot1 true 0
  else if slotId = 2 then s.clearSlot2 true 0
  else s

inductive Event
  | startDatacall (request : DataCallInputParams) (data : Option ApiResult) (allowed : Bool)
  | stopDatacall (request : DataCallInputParams) (data : Option ApiResult)
  | cleanUpService (clientId : Int)
  | startTask (n : Nat) (physicalInterfaceName ipv4 ipv6 : String)
  | stopTask (n : Nat)
  | stopActiveDataCalls (slotId : Int)
deriving DecidableEq, Repr

/-- A request whose configured result cannot be read (`none`) changes nothing. -/
def step (s : DataConnectionServer) : Event → Option DataConnectionServer
  | .startDatacall request (some data) allowed => some (s.startDatacall request data allowed)
  | .stopDatacall request (some data) => some (s.stopDatacall request data)
  | .startDatacall _ none _ | .stopDatacall _ none => some s
  | .cleanUpService clientId => some (s.cleanUpService clientId)
  | .startTask n physicalInterfaceName ipv4 ipv6 => s.startTasks[n]?.map fun task =>
    { s with startTasks := s.startTasks.eraseIdx n }.triggerStartDataCallEvent task
      physicalInterfaceName ipv4 ipv6
  | .stopTask n => s.stopTasks[n]?.map fun task =>
    { s with stopTasks := s.stopTasks.eraseIdx n }.triggerStopDataCallEvent task.ifaceName
  | .stopActiveDataCalls slotId => some (s.stopActiveDataCalls slotId)

/-- A start task that creates a call obtains an IP address for it. -/
def Obtains (s : DataConnectionServer) : Event → Prop
  | .startTask n physicalInterfaceName ipv4 ipv6 => ∀ task ∈ s.startTasks[n]?,
    (((s.refresh task physicalInterfaceName).newCall task).getIpAddresses
      task.ipFamilyType ipv4 ipv6).Supported
  | _ => True

/-- The start tasks obtain an IP address, and the calls of a slot are not all torn down. -/
def Considered (s : DataConnectionServer) (e : Event) : Prop :=
  s.Obtains e ∧ ∀ slotId, e ≠ .stopActiveDataCalls slotId

/-- The last owner stops its call with the family of the call. -/
def EndsWithFamily (s : DataConnectionServer) (request : DataCallInputParams)
    (data : Option ApiResult) : Prop :=
  ∀ d ∈ data, d.Succeeds → ∀ call ∈ s.dataCall? request.slotId request.profileId,
    (call.leave request.clientId).ownersId = ∅ →
      convertIpFamilyEnumToString request.ipFamilyType = call.ipFamilyType

instance (s : DataConnectionServer) : DecidablePred s.Obtains
  | .startTask .. => inferInstanceAs (Decidable (∀ task ∈ _, DataCallParams.Supported _))
  | .startDatacall .. | .stopDatacall .. | .cleanUpService _ | .stopTask _ |
    .stopActiveDataCalls _ => inferInstanceAs (Decidable True)

instance (s : DataConnectionServer) : DecidablePred s.Considered
  | .stopActiveDataCalls slotId => isFalse fun h => h.2 slotId rfl
  | .startDatacall .. | .stopDatacall .. | .cleanUpService _ | .startTask .. | .stopTask _ =>
    decidable_of_iff (s.Obtains _) ⟨fun h => ⟨h, nofun⟩, And.left⟩

instance (s : DataConnectionServer) (request : DataCallInputParams) (data : Option ApiResult) :
    Decidable (s.EndsWithFamily request data) :=
  inferInstanceAs (Decidable (∀ d ∈ _, _ → ∀ call ∈ _, _ → _))

/-! ## The cached calls after an operation -/

def ValidSlot (slotId : Int) : Prop := slotId = 1 ∨ slotId = 2

instance : DecidablePred ValidSlot := fun _ => inferInstanceAs (Decidable (_ ∨ _))

variable {s s' : DataConnectionServer} {slotId profileId : Int} {call : DataCallParams}

theorem validSlot_of_dataCall? (h : s.dataCall? slotId profileId = some call) :
    ValidSlot slotId := by
  rw [dataCall?] at h
  split_ifs at h with h1 h2
  · exact .inl h1
  · exact .inr h2

theorem dataCall?_cache (h : ValidSlot slotId) (slotId' profileId' : Int) :
    (s.cache slotId profileId call).dataCall? slotId' profileId' =
      if slotId' = slotId ∧ profileId' = profileId then some call
      else s.dataCall? slotId' profileId' := by
  rcases h with rfl | rfl
  · rw [cache, if_pos rfl, dataCall?, dataCall?]
    by_cases h1 : slotId' = 1 <;> simp [h1]
  · rw [cache, if_neg (by omega), dataCall?, dataCall?]
    by_cases h1 : slotId' = 1
    · simp [h1]
    · by_cases h2 : slotId' = 2 <;> simp [h1, h2]

theorem dataCall?_uncache (h : ValidSlot slotId) (slotId' profileId' : Int) :
    (s.uncache slotId profileId).dataCall? slotId' profileId' =
      if slotId' = slotId ∧ profileId' = profileId then none
      else s.dataCall? slotId' profileId' := by
  rcases h with rfl | rfl
  · rw [uncache, if_pos rfl, dataCall?, dataCall?]
    by_cases h1 : slotId' = 1 <;> simp [h1]
  · rw [uncache, if_neg (by omega), dataCall?, dataCall?]
    by_cases h1 : slotId' = 1
    · simp [h1]
    · by_cases h2 : slotId' = 2 <;> simp [h1, h2]

/-- What `cache`, `uncache` and the stops leave alone. -/
structure SameTasks (s s' : DataConnectionServer) : Prop where
  startTasks : s'.startTasks = s.startTasks
  stopTasks : s'.stopTasks = s.stopTasks

theorem sameTasks_cache (s : DataConnectionServer) (slotId profileId : Int)
    (call : DataCallParams) : SameTasks s (s.cache slotId profileId call) := by
  rw [cache]
  split <;> exact ⟨rfl, rfl⟩

theorem sameTasks_uncache (s : DataConnectionServer) (slotId profileId : Int) :
    SameTasks s (s.uncache slotId profileId) := by
  rw [uncache]
  split <;> exact ⟨rfl, rfl⟩

@[simp]
theorem dataCall?_refresh (s : DataConnectionServer) (task : StartTask) (conf : String) :
    (s.refresh task conf).dataCall? = s.dataCall? := by
  rw [refresh]
  split <;> rfl

/-- The stops change the lists of interfaces only. -/
structure SameCalls (s s' : DataConnectionServer) : Prop where
  slot1 : s'.dataCallsSlot1 = s.dataCallsSlot1
  slot2 : s'.dataCallsSlot2 = s.dataCallsSlot2
  tasks : SameTasks s s'

theorem sameCalls_stopCalls (stopAllCalls : Bool) (clientId : Int) (dataCalls : DataCalls)
    (s : DataConnectionServer) : SameCalls s (stopCalls stopAllCalls clientId dataCalls s) := by
  rw [stopCalls]
  induction dataCalls.values.filter _ generalizing s with
  | nil => exact ⟨rfl, rfl, rfl, rfl⟩
  | cons call calls ih =>
    obtain ⟨h1, h2, h3⟩ := ih (s.triggerStopDataCallEvent call.ifaceName)
    exact ⟨h1, h2, h3.startTasks, h3.stopTasks⟩

theorem sameTasks_cleanUpService (s : DataConnectionServer) (clientId : Int) :
    SameTasks s (s.cleanUpService clientId) := by
  have h1 := (sameCalls_stopCalls false clientId s.dataCallsSlot1 s).tasks
  have h2 := (sameCalls_stopCalls false clientId (s.clearSlot1 false clientId).dataCallsSlot2
    (s.clearSlot1 false clientId)).tasks
  exact ⟨h2.startTasks.trans h1.startTasks, h2.stopTasks.trans h1.stopTasks⟩

/-- After an exit a call has one owner less, or is gone if that was the last one. -/
theorem dataCall?_cleanUpService (s : DataConnectionServer) (clientId slotId profileId : Int) :
    (s.cleanUpService clientId).dataCall? slotId profileId =
      (s.dataCall? slotId profileId).bind fun call =>
        if Ends false clientId call then none else some (call.leave clientId) := by
  have h1 := sameCalls_stopCalls false clientId s.dataCallsSlot1 s
  have h2 := sameCalls_stopCalls false clientId (s.clearSlot1 false clientId).dataCallsSlot2
    (s.clearSlot1 false clientId)
  have hslot1 : (s.cleanUpService clientId).dataCallsSlot1 =
      clearCachedDataCall false clientId s.dataCallsSlot1 := h2.slot1
  have hslot2 : (s.cleanUpService clientId).dataCallsSlot2 =
      clearCachedDataCall false clientId s.dataCallsSlot2 :=
    congrArg (clearCachedDataCall false clientId) h1.slot2
  rw [dataCall?, dataCall?, hslot1, hslot2]
  split_ifs
  · exact Assoc.Map.get?_filterMap _ _ _
  · exact Assoc.Map.get?_filterMap _ _ _
  · rfl

end DataConnectionServer

end Data

end SatComm
