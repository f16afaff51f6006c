import SatComm.Runs.Maps

/-!
# The refresh of a SIM card

The card service keeps one refresh session for each slot. Clients register for refresh events and
as voters; a session that waits for votes starts when the votes have counted a number down to 0,
and one that waits for confirmations ends when these have. Each change of the stage is a task that
waits first, on a condition variable shared by all tasks, until its time has come or anybody
notifies, and then looks at the session its slot has at that time.

The functions below run undisturbed, each task after its wait. A task knows its slot only. What it
is scheduled for and what happened in a session is recorded beside, for the statements.
-/

namespace SatComm

namespace Card

inductive SessionType
  | primary
  | secondary
  | nonprovisioningSlot1
  | nonprovisioningSlot2
  | cardOnSlot1
  | cardOnSlot2
  /-- Also `UNKNOWN`. -/
  | other (value : Int)
deriving DecidableEq, Repr

inductive RefreshMode
  | reset
  | init
  | initFcn
  | fcn
  | initFullFcn
  | resetApp
  | reset3g
  /-- Also `UNKNOWN`. -/
  | other (value : Int)
deriving DecidableEq, Repr

inductive CardRefreshStage
  | waitingForVotes
  | starting
  | endedWithSuccess
  | endedWithFailure
deriving DecidableEq, Repr

inductive Status
  | success
  | failed
  | other (value : Int)
deriving DecidableEq, Repr

inductive ErrorCode
  | success
  | cancelled
  | invalidState
  | notProvisioned
  | subscriptionNotSupported
  | operationNotAllowed
  | modeNotSupported
  | already
  | other (value : Int)
deriving DecidableEq, Repr

structure RefreshParams where
  sessionType : SessionType
  aid : String
deriving DecidableEq, Repr

structure IccFile where
  fileId : Int
  filePath : String
deriving DecidableEq, Repr

structure ClientSimRefreshPref where
  clientId : UInt32
  phoneId : Int
  sessionAid : RefreshParams
deriving DecidableEq, Repr

structure RefreshEvent where
  phoneId : Int
  stage : CardRefreshStage
  mode : RefreshMode
  efFiles : List IccFile
  refreshs : RefreshParams
deriving DecidableEq, Repr

/-- The course of a session. No function reads it. -/
structure Course where
  session : Nat := 0
  /-- Whether there were voters when it was injected. -/
  hasVoters : Bool := false
  allowed : List ClientSimRefreshPref := []
  denied : List ClientSimRefreshPref := []
  confirmed : List ClientSimRefreshPref := []
  reported : List CardRefreshStage := []
  /-- When it was injected and when it entered `STARTING` last. -/
  injectedAt : Nat := 0
  startedAt : Nat := 0
deriving DecidableEq, Repr

structure RefreshEventAndPending where
  refreshEvent : RefreshEvent
  pendingAllow : UInt32
  pendingComplete : UInt32
  course : Course
deriving DecidableEq, Repr

/-- What a map gives for a key that it does not have. -/
instance : Inhabited RefreshEventAndPending where
  default := ⟨⟨0, .waitingForVotes, .reset, [], ⟨.primary, ""⟩⟩, 0, 0, {}⟩

/-- A call of `updateSimRefreshStage` that has not run yet. -/
structure Task where
  id : Nat
  slotId : Int
  newStage : CardRefreshStage
  delayMs : Nat
  checkPendingUserAllow : Bool
  checkPendingUserComplete : Bool
  /-- The time of the call. -/
  start : Nat
  /-- Whether there was a notification during the wait. -/
  notified : Bool
  /-- The session that the call was made for. -/
  session : Nat
deriving DecidableEq, Repr

structure Server where
  refreshEvtMap : Assoc.Map Int RefreshEventAndPending
  refreshRegisterClients : List ClientSimRefreshPref
  refreshVotingClients : List ClientSimRefreshPref
  taskQ : List Task
  /-- The number of calls of `updateSimRefreshStage` so far. -/
  scheduled : Nat
  now : Nat
deriving DecidableEq

def initial : Server where
  refreshEvtMap := .empty
  refreshRegisterClients := []
  refreshVotingClients := []
  taskQ := []
  scheduled := 0
  now := 0

/-- What the configuration file gives for a request. -/
structure ApiConfigure where
  status : Status
  error : ErrorCode
  delay : Int
deriving DecidableEq, Repr

structure TelCommonReply where
  error : ErrorCode
  status : Status
  delay : Int
deriving DecidableEq, Repr

/-- The tokens of an injected event. A token that cannot be read makes the injection fail before it
does anything. -/
structure SimRefresh where
  mode : RefreshMode
  fileId : Int
  filePath : String
  sessionId : SessionType
  aid : String
deriving DecidableEq, Repr

structure RefreshConfigReq where
  clientInfo : ClientSimRefreshPref
  isRegister : Bool
  doVoting : Bool
  api : ApiConfigure
deriving DecidableEq, Repr

structure AllowCardRefreshReq where
  clientInfo : ClientSimRefreshPref
  allowRefresh : Bool
  api : ApiConfigure
deriving DecidableEq, Repr

structure ConfirmRefreshHandlingCompleteReq where
  clientInfo : ClientSimRefreshPref
  isCompleted : Bool
  api : ApiConfigure
deriving DecidableEq, Repr

def defaultDelay : Nat := 100

def refreshUserAllowTimeoutMs : Nat := 1000 * 10

def refreshUserCompleteTimeoutMs : Nat := 1000 * 120

/-- `none` is `INVALID_SLOT_ID`. -/
def getSlotBySessionType : SessionType → Option Int
  | .primary | .nonprovisioningSlot1 | .cardOnSlot1 => some 1
  | .secondary | .nonprovisioningSlot2 | .cardOnSlot2 => some 2
  | .other _ => none

/-- The modes that need a confirmation, once the refresh starts. -/
def needsConfirm (mode : RefreshMode) (st : SessionType) : Bool :=
  (mode == .initFcn || mode == .fcn) && (st == .primary || st == .secondary) ||
    mode != .reset && (st == .nonprovisioningSlot1 || st == .nonprovisioningSlot2)

def requireConfirmComplete (stage : CardRefreshStage) (mode : RefreshMode) (st : SessionType) :
    Bool :=
  stage == .starting && needsConfirm mode st

def clientSimRefreshInfoPresent (clients : List ClientSimRefreshPref)
    (entry : ClientSimRefreshPref) : Bool :=
  clients.contains entry

def updateClientSimRefresh (clients : List ClientSimRefreshPref) (usrPref : ClientSimRefreshPref)
    (enable : Bool) : List ClientSimRefreshPref × ErrorCode :=
  if clientSimRefreshInfoPresent clients usrPref then
    if enable then (clients, .already) else (clients.erase usrPref, .success)
  else if enable then (clients ++ [usrPref], .success) else (clients, .already)

namespace RefreshEventAndPending

def stage (r : RefreshEventAndPending) : CardRefreshStage := r.refreshEvent.stage

def inProgress (r : RefreshEventAndPending) : Bool :=
  r.stage == .waitingForVotes || r.stage == .starting

/-- Whether the refresh, once it starts, has to be confirmed. -/
def confirms (r : RefreshEventAndPending) : Bool :=
  needsConfirm r.refreshEvent.mode r.refreshEvent.refreshs.sessionType

/-- The stage is set and reported. -/
def enter (r : RefreshEventAndPending) (stage : CardRefreshStage) (now : Nat) :
    RefreshEventAndPending :=
  { r with
    refreshEvent := { r.refreshEvent with stage := stage }
    course := { r.course with
      reported := r.course.reported ++ [stage]
      startedAt := if stage = .starting then now else r.course.startedAt } }

/-- A failure clears the counters. -/
def clear (r : RefreshEventAndPending) : RefreshEventAndPending :=
  { r with pendingAllow := 0, pendingComplete := 0 }

/-- A vote for the refresh. -/
def allow (r : RefreshEventAndPending) (client : ClientSimRefreshPref) : RefreshEventAndPending :=
  { r with
    pendingAllow := if r.pendingAllow > 0 then r.pendingAllow - 1 else r.pendingAllow
    course := { r.course with allowed := r.course.allowed ++ [client] } }

/-- A vote against it. -/
def deny (r : RefreshEventAndPending) (client : ClientSimRefreshPref) : RefreshEventAndPending :=
  { r with course := { r.course with denied := r.course.denied ++ [client] } }

def confirm (r : RefreshEventAndPending) (client : ClientSimRefreshPref) : RefreshEventAndPending :=
  { r with
    pendingComplete := if r.pendingComplete > 0 then r.pendingComplete - 1 else r.pendingComplete
    course := { r.course with confirmed := r.course.confirmed ++ [client] } }

end RefreshEventAndPending

namespace Task

/-- The wait is over. -/
def due (t : Task) (now : Nat) : Bool := t.notified || decide (t.start + t.delayMs ≤ now)

def cancelled (t : Task) (r : RefreshEventAndPending) : Bool :=
  t.checkPendingUserAllow && r.pendingAllow == 0 ||
    t.checkPendingUserComplete && r.pendingComplete == 0

end Task

namespace Server

def slot? (s : Server) (slotId : Int) : Option RefreshEventAndPending :=
  s.refreshEvtMap.get? slotId

def setSlot (s : Server) (slotId : Int) (r : RefreshEventAndPending) : Server :=
  { s with refreshEvtMap := s.refreshEvtMap.set slotId r }

/-- `cv_.notify_all` -/
def notifyAll (s : Server) : Server :=
  { s with taskQ := s.taskQ.map fun t => { t with notified := true } }

/-- The call only schedules: what it does later is `runTask`. -/
def updateSimRefreshStage (s : Server) (slotId : Int) (newStage : CardRefreshStage) (delayMs : Nat)
    (checkPendingUserAllow checkPendingUserComplete : Bool) (session : Nat) : Server :=
  { s with
    taskQ := s.taskQ ++ [⟨s.scheduled, slotId, newStage, delayMs, checkPendingUserAllow,
      checkPendingUserComplete, s.now, false, session⟩]
    scheduled := s.scheduled + 1 }

/-- What a refresh that has started waits for. -/
def awaitEnd (s : Server) (slotId : Int) (r : RefreshEventAndPending) : Server :=
  if r.pendingComplete > 0 && requireConfirmComplete .starting r.refreshEvent.mode
      r.refreshEvent.refreshs.sessionType then
    s.updateSimRefreshStage slotId .endedWithFailure refreshUserCompleteTimeoutMs false true
      r.course.session
  else
    s.updateSimRefreshStage slotId .endedWithSuccess defaultDelay false false r.course.session

/-- The session that an injection makes. -/
def newRefreshEvt (s : Server) (p : SimRefresh) (slotId : Int) : RefreshEventAndPending :=
  let pendingAllow := UInt32.ofNat s.refreshVotingClients.length
  let stage := if pendingAllow = 0 then .starting else .waitingForVotes
  { refreshEvent :=
      { phoneId := slotId
        stage := stage
        mode := p.mode
        efFiles := [⟨p.fileId, p.filePath⟩]
        refreshs :=
          { sessionType := p.sessionId
            aid := if p.sessionId = .nonprovisioningSlot1 ∨ p.sessionId = .nonprovisioningSlot2
              then p.aid else "" } }
    pendingAllow := pendingAllow
    pendingComplete := UInt32.ofNat s.refreshRegisterClients.length
    course :=
      { session := (s.slot? slotId).elim 0 fun r => r.course.session + 1
        hasVoters := !s.refreshVotingClients.isEmpty
        reported := [stage]
        injectedAt := s.now
        startedAt := s.now } }

def inject (s : Server) (p : SimRefresh) (slotId : Int) : Server :=
  let r := s.newRefreshEvt p slotId
  if r.stage = .starting then (s.setSlot slotId r).awaitEnd slotId r
  else (s.updateSimRefreshStage slotId .endedWithFailure refreshUserAllowTimeoutMs true false
    r.course.session).setSlot slotId r

/-- Whether an event is posted is returned, too. -/
def handleSimRefreshInjector (s : Server) (p : SimRefresh) : Server × Bool :=
  match getSlotBySessionType p.sessionId with
  | none => (s, false)
  | some slotId =>
    if (s.slot? slotId).any (·.inProgress) then (s, false) else (s.inject p slotId, true)

def setupRefreshConfig (s : Server) (request : RefreshConfigReq) : Server × TelCommonReply :=
  let api := request.api
  if api.status ≠ .success then (s, ⟨api.error, api.status, api.delay⟩)
  else if (s.slot? request.clientInfo.phoneId).any (·.inProgress) then
    (s, ⟨.invalidState, .failed, api.delay⟩)
  else
    let voting := updateClientSimRefresh s.refreshVotingClients request.clientInfo request.doVoting
    let register :=
      updateClientSimRefresh s.refreshRegisterClients request.clientInfo request.isRegister
    ({ s with refreshVotingClients := voting.1, refreshRegisterClients := register.1 },
      ⟨register.2, api.status, api.delay⟩)

/-- A vote in the session `r`. -/
def vote (s : Server) (request : AllowCardRefreshReq) (r : RefreshEventAndPending) : Server :=
  let client := request.clientInfo
  if request.allowRefresh then
    let s := s.setSlot client.phoneId (r.allow client)
    if (r.allow client).pendingAllow = 0 then
      s.notifyAll.updateSimRefreshStage client.phoneId .starting defaultDelay false false
        r.course.session
    else s
  else
    (s.setSlot client.phoneId (r.deny client)).updateSimRefreshStage client.phoneId
      .endedWithFailure 0 false false r.course.session

def allowCardRefresh (s : Server) (request : AllowCardRefreshReq) : Server × TelCommonReply :=
  let api := request.api
  let client := request.clientInfo
  if api.status ≠ .success then (s, ⟨api.error, api.status, api.delay⟩)
  else if ¬ clientSimRefreshInfoPresent s.refreshVotingClients client then
    (s, ⟨.notProvisioned, .failed, api.delay⟩)
  else
    match s.slot? client.phoneId with
    | none => (s, ⟨.subscriptionNotSupported, .failed, api.delay⟩)
    | some r =>
      if r.stage ≠ .waitingForVotes then (s, ⟨.operationNotAllowed, .failed, api.delay⟩)
      else (s.vote request r, ⟨api.error, api.status, api.delay⟩)

/-- A confirmation in the session `r`. -/
def complete (s : Server) (request : ConfirmRefreshHandlingCompleteReq)
    (r : RefreshEventAndPending) : Server :=
  let client := request.clientInfo
  if request.isCompleted then
    let s := s.setSlot client.phoneId (r.confirm client)
    if (r.confirm client).pendingComplete = 0 then
      s.notifyAll.updateSimRefreshStage client.phoneId .endedWithSuccess defaultDelay false false
        r.course.session
    else s
  else s

def confirmRefreshHandlingCompleted (s : Server) (request : ConfirmRefreshHandlingCompleteReq) :
    Server × TelCommonReply :=
  let api := request.api
  let client := request.clientInfo
  if api.status ≠ .success then (s, ⟨api.error, api.status, api.delay⟩)
  else if ¬ clientSimRefreshInfoPresent s.refreshRegisterClients client then
    (s, ⟨.notProvisioned, .failed, api.delay⟩)
  else
    match s.slot? client.phoneId with
    | none => (s, ⟨.subscriptionNotSupported, .failed, api.delay⟩)
    | some r =>
      if ¬ requireConfirmComplete r.stage r.refreshEvent.mode
          r.refreshEvent.refreshs.sessionType then
        (s, ⟨.modeNotSupported, .failed, api.delay⟩)
      else (s.complete request r, ⟨api.error, api.status, api.delay⟩)

/-- The stage of the slot is set to that of the task. -/
def enterStage (s : Server) (slotId : Int) (r : RefreshEventAndPending)
    (newStage : CardRefreshStage) : Server :=
  match newStage with
  | .endedWithFailure => (s.setSlot slotId (r.clear.enter newStage s.now)).notifyAll
  | .starting =>
    (s.setSlot slotId (r.enter newStage s.now)).awaitEnd slotId (r.enter newStage s.now)
  | .waitingForVotes | .endedWithSuccess => s.setSlot slotId (r.enter newStage s.now)

/-- What `updateSimRefreshStage` does after the wait. -/
def runTask (s : Server) (t : Task) : Server :=
  let r := (s.slot? t.slotId).getD default
  if t.cancelled r then s
  else if r.inProgress then s.enterStage t.slotId r t.newStage
  else s

/-- The task is no longer waiting. -/
def drop (s : Server) (id : Nat) : Server :=
  { s with taskQ := s.taskQ.filter (·.id ≠ id) }

def task? (s : Server) (id : Nat) : Option Task := s.taskQ.find? (·.id = id)

end Server

inductive Event
  | setupRefreshConfig (request : RefreshConfigReq)
  | simRefresh (p : SimRefresh)
  | allowCardRefresh (request : AllowCardRefreshReq)
  | confirmRefreshHandlingCompleted (request : ConfirmRefreshHandlingCompleteReq)
  /-- This task goes on, if its wait is over. -/
  | task (id : Nat)
  | elapse (ms : Nat)
deriving DecidableEq, Repr

namespace Server

def step (s : Server) : Event → Server
  | .setupRefreshConfig request => (s.setupRefreshConfig request).1
  | .simRefresh p => (s.handleSimRefreshInjector p).1
  | .allowCardRefresh request => (s.allowCardRefresh request).1
  | .confirmRefreshHandlingCompleted request => (s.confirmRefreshHandlingCompleted request).1
  | .task id =>
    match s.task? id with
    | none => s
    | some t => if t.due s.now then (s.drop id).runTask t else s
  | .elapse ms => { s with now := s.now + ms }

end Server

/-- The server along a run. -/
def runs (e : Nat → Event) : Nat → Server
  | 0 => initial
  | n + 1 => (runs e n).step (e n)

end Card

end SatComm
