import SatComm.Tel.CallManager
import SatComm.Tel.HlapTimers

/-!
# The eCall state machine

`EcallStateMachine` follows one eCall from call setup to the PSAP callback. A state changes the
state of the machine from inside its own `onEnter`, so that one event runs a whole chain of
`onExit` and `onEnter` bodies, and goes on in the outer bodies when the chain has come to rest.
No state changes to one that comes before it in the order in which their `onEnter` bodies are
written down here, so the chains are calls of functions that are defined before.

What the machine does to the call service is the status of the HLAP timers and the list of its
requests. A handler runs as one step.
-/

namespace SatComm

namespace Tel

inductive StateID
  | modemRedial | callConnect | decodeSendMSD | crcCheckOnMSD | decodeMSD | callConversation
  | psapCallback
deriving DecidableEq, Repr

/-- The entries of `configureFailureForRegulatoryECall`. -/
inductive FailureConfig
  | success | t5Failed | t6Failed | t7Failed
deriving DecidableEq, Repr

/-- The values of `configureECallRedialFailure`. Every other text is `invalid`. -/
inductive RedialConfig
  | success | callOrig | callDrop | invalid
deriving DecidableEq, Repr

inductive ECallMode
  | normal | eCallOnly | none
deriving DecidableEq, Repr

inductive ReasonType
  | callOrigFailure | callDrop | maxRedialAttempted | callConnected
deriving DecidableEq, Repr

inductive MsdTransmission
  | startReceived | started | success | failure | outbandStarted | outbandSuccess
  | outbandFailure | llAckReceived | llNackDueToT7Expiry | alAckClearDown
deriving DecidableEq, Repr

/-- What the machine asks the call service to do, the timers apart. -/
inductive ServiceRequest
  | changeCallState (state : CallState)
  | onECallRedial (willECallRedial : Bool) (reason : ReasonType)
  | msdTransmissionStatus (status : MsdTransmission)
deriving DecidableEq, Repr

/-- What the machine is made with, and the time gaps that it reads when it redials. -/
structure EcallConfig where
  result : List FailureConfig
  isMsdTransmitted : Bool
  isNGeCall : Bool
  isALACKConfigEnabled : Bool
  isCustomNumbereCall : Bool
  eCallRedialConfig : RedialConfig
  callOrigFailureTimeGap : List Int
  callDropTimeGap : List Int
deriving DecidableEq, Repr

inductive EventID
  | none | hangupRequestFromUser | hangupRequestFromPsap | msdPullRequestFromPsap | onTimerExpiry
  | onNetworkDeregistrationRequest
deriving DecidableEq, Repr

/-- The name of an MSD pull request: `CSeCall` or `NGeCall`. -/
inductive PullName
  | csECall | ngECall
deriving DecidableEq, Repr

inductive TelEvent
  | hangupRequestFromUser
  | hangupRequestFromPsap
  | msdPullRequestFromPsap (name : PullName)
  | onTimerExpiry (timer : HlapTimer)
  | onNetworkDeregistrationRequest
deriving DecidableEq, Repr

structure EcallStateMachine where
  currentState : Option StateID
  started : Bool
  eventId : EventID
  updateInProgress : Bool
  /-- The recorded status of the HLAP timers. -/
  status : HlapStatus
  /-- The eCall operating mode that is recorded for the phone. -/
  mode : ECallMode
  requests : List ServiceRequest

namespace EcallConfig

def parseVectortoString (cfg : EcallConfig) (compareTimer : FailureConfig) : Bool :=
  cfg.result.contains compareTimer

/-- The number of attempts, none where the configuration is no failure. -/
def getConfiguredRedialAttempts (cfg : EcallConfig) : Nat :=
  match cfg.eCallRedialConfig with
  | .callOrig => cfg.callOrigFailureTimeGap.length
  | .callDrop => cfg.callDropTimeGap.length
  | .success | .invalid => 0

end EcallConfig

namespace EcallStateMachine

def startTimer (m : EcallStateMachine) (timer : HlapTimer) : EcallStateMachine :=
  { m with status := m.status.startTimer timer }

def sendEvent (m : EcallStateMachine) (timer : HlapTimer) (request : TimerRequest) :
    EcallStateMachine := { m with status := m.status.sendEvent timer request }

def expiryTimer (m : EcallStateMachine) (timer : HlapTimer) : EcallStateMachine :=
  { m with status := m.status.expiryTimer timer }

def request (m : EcallStateMachine) (r : ServiceRequest) : EcallStateMachine :=
  { m with requests := m.requests ++ [r] }

def changeCallState (m : EcallStateMachine) (state : CallState) : EcallStateMachine :=
  m.request (.changeCallState state)

def onECallRedial (m : EcallStateMachine) (willECallRedial : Bool) (reason : ReasonType) :
    EcallStateMachine := m.request (.onECallRedial willECallRedial reason)

def msdTransmissionStatus (m : EcallStateMachine) (status : MsdTransmission) :
    EcallStateMachine := m.request (.msdTransmissionStatus status)

def setUpdateInProgress (m : EcallStateMachine) (updateInProgress : Bool) : EcallStateMachine :=
  { m with updateInProgress := updateInProgress }

/-- An MSD pull request is taken up. -/
def beginUpdate (m : EcallStateMachine) : EcallStateMachine :=
  { m with eventId := .msdPullRequestFromPsap, updateInProgress := true }

variable (cfg : EcallConfig)

def CallConnect.onExit (m : EcallStateMachine) : EcallStateMachine :=
  if ¬ cfg.isNGeCall ∧ cfg.isMsdTransmitted then
    if ¬ cfg.parseVectortoString .t5Failed ∧ cfg.eCallRedialConfig ≠ .callDrop then
      m.sendEvent .t5 .start
    else m.startTimer .t5
  else m

def CRCCheckonMSD.onExit (m : EcallStateMachine) : EcallStateMachine :=
  if ¬ cfg.parseVectortoString .t7Failed then
    (m.sendEvent .t7 .stop).msdTransmissionStatus .llAckReceived
  else m

/-- The `onExit` of the current state. The other states do nothing. -/
def onExit (m : EcallStateMachine) : EcallStateMachine :=
  match m.currentState with
  | some .callConnect => CallConnect.onExit cfg m
  | some .crcCheckOnMSD => CRCCheckonMSD.onExit cfg m
  | _ => m

/-- `BaseStateMachine::changeState`, given the `onEnter` of the new state. -/
def changeState (m : EcallStateMachine) (state : StateID)
    (onEnter : EcallStateMachine → EcallStateMachine) : EcallStateMachine :=
  if ¬ m.started then m
  else if m.currentState = some state then m
  else onEnter { onExit cfg m with currentState := some state }

def stop (m : EcallStateMachine) : EcallStateMachine :=
  { onExit cfg m with currentState := none, started := false }

/-- One attempt of `ModemRedial::onEnter`. -/
def redialAttempt (m : EcallStateMachine) (dialAttempts : Nat) : EcallStateMachine :=
  if dialAttempts < cfg.getConfiguredRedialAttempts then
    let m := if m.mode = .eCallOnly ∧ cfg.eCallRedialConfig = .callOrig then
      m.sendEvent .t10 .start else m
    let m := m.changeCallState .dialing
    let m := if cfg.eCallRedialConfig = .callOrig then
        let m := m.onECallRedial true .callOrigFailure
        if m.mode = .eCallOnly then m.sendEvent .t10 .stop else m
      else m.onECallRedial true .callDrop
    m.changeCallState .ended
  else
    let m := ((m.changeCallState .dialing).onECallRedial false .maxRedialAttempted).changeCallState
      .ended
    if m.mode = .eCallOnly then m.startTimer .t10 else m

def ModemRedial.onEnter (m : EcallStateMachine) : EcallStateMachine :=
  (List.range' 1 cfg.getConfiguredRedialAttempts).foldl (redialAttempt cfg) m

def PSAPCallback.onEnter (m : EcallStateMachine) : EcallStateMachine :=
  let m := m.startTimer .t9
  let m := if cfg.eCallRedialConfig = .success ∧ m.mode = .eCallOnly then m.startTimer .t10 else m
  let m := if cfg.eCallRedialConfig = .callOrig then m.onECallRedial true .callOrigFailure
    else
      let m := m.sendEvent .t2 .stop
      if cfg.eCallRedialConfig = .callDrop then m.onECallRedial true .callDrop else m
  let m := m.changeCallState .ended
  if cfg.eCallRedialConfig ≠ .success then changeState cfg m .modemRedial (ModemRedial.onEnter cfg)
  else m

def CallConversation.onEnter (m : EcallStateMachine) : EcallStateMachine :=
  if cfg.isALACKConfigEnabled then changeState cfg m .psapCallback (PSAPCallback.onEnter cfg)
  else m

/-- What `DecodeMSD::onEnter` does after a transmission for which an acknowledgement came. -/
def DecodeMSD.acknowledged (m : EcallStateMachine) : EcallStateMachine :=
  let m := if m.eventId = .msdPullRequestFromPsap then m.setUpdateInProgress false
    else if cfg.isALACKConfigEnabled then m.msdTransmissionStatus .alAckClearDown else m
  changeState cfg m .callConversation (CallConversation.onEnter cfg)

def DecodeMSD.onEnter (m : EcallStateMachine) : EcallStateMachine :=
  if ¬ cfg.isNGeCall then
    if ¬ cfg.parseVectortoString .t6Failed then
      DecodeMSD.acknowledged cfg
        (((m.sendEvent .t6 .start).msdTransmissionStatus .success).sendEvent .t6 .stop)
    else if ¬ cfg.isCustomNumbereCall then m.startTimer .t6
    else m
  else DecodeMSD.acknowledged cfg (m.msdTransmissionStatus .outbandSuccess)

def CRCCheckonMSD.onEnter (m : EcallStateMachine) : EcallStateMachine :=
  if ¬ cfg.parseVectortoString .t7Failed then
    changeState cfg (m.sendEvent .t7 .start) .decodeMSD (DecodeMSD.onEnter cfg)
  else m.startTimer .t7

def DecodeSendMSD.onEnter (m : EcallStateMachine) : EcallStateMachine :=
  if ¬ cfg.isNGeCall then
    if cfg.isMsdTransmitted then
      if m.eventId = .msdPullRequestFromPsap then
        changeState cfg
          ((m.msdTransmissionStatus .startReceived).msdTransmissionStatus .started)
          .crcCheckOnMSD (CRCCheckonMSD.onEnter cfg)
      else
        let m := (m.msdTransmissionStatus .started).changeCallState .active
        if ¬ cfg.parseVectortoString .t5Failed ∧ cfg.eCallRedialConfig = .success then
          changeState cfg ((m.msdTransmissionStatus .startReceived).sendEvent .t5 .stop)
            .crcCheckOnMSD (CRCCheckonMSD.onEnter cfg)
        else m
    else
      -- The chain that a pull request starts comes to rest before the call is made active.
      let m := if ¬ cfg.isCustomNumbereCall ∧ m.eventId = .msdPullRequestFromPsap then
        changeState cfg (m.msdTransmissionStatus .started) .crcCheckOnMSD
          (CRCCheckonMSD.onEnter cfg) else m
      changeState cfg (m.changeCallState .active) .callConversation (CallConversation.onEnter cfg)
  else
    if cfg.isMsdTransmitted then
      let m := if ¬ cfg.isCustomNumbereCall then m.msdTransmissionStatus .outbandStarted else m
      let m := m.changeCallState .active
      if cfg.eCallRedialConfig = .callDrop then
        changeState cfg (m.msdTransmissionStatus .outbandFailure) .psapCallback
          (PSAPCallback.onEnter cfg)
      else changeState cfg m .decodeMSD (DecodeMSD.onEnter cfg)
    else
      changeState cfg (m.changeCallState .active) .callConversation (CallConversation.onEnter cfg)

def CallConnect.onEnter (m : EcallStateMachine) : EcallStateMachine :=
  let m := m.changeCallState .dialing
  if cfg.eCallRedialConfig = .callOrig then
    changeState cfg m .psapCallback (PSAPCallback.onEnter cfg)
  else
    let m := m.changeCallState .alerting
    let m := if cfg.eCallRedialConfig = .success ∨ cfg.eCallRedialConfig = .callDrop then
      m.onECallRedial false .callConnected else m
    changeState cfg (m.startTimer .t2) .decodeSendMSD (DecodeSendMSD.onEnter cfg)

/-- The machine after `start`, with the status of the timers and the mode that it finds. -/
def start (status : HlapStatus) (mode : ECallMode) : EcallStateMachine :=
  changeState cfg
    { currentState := none, started := true, eventId := .none, updateInProgress := false
      status := status, mode := mode, requests := [] }
    .callConnect (CallConnect.onEnter cfg)

def isHangup : TelEvent → Bool
  | .hangupRequestFromUser | .hangupRequestFromPsap => true
  | _ => false

/-- A hangup while the call is set up or its MSD is sent. -/
def hangup (m : EcallStateMachine) : EcallStateMachine :=
  changeState cfg ((m.changeCallState .ended).sendEvent .t2 .stop) .psapCallback
    (PSAPCallback.onEnter cfg)

def CallConnect.onEvent (m : EcallStateMachine) (event : TelEvent) : EcallStateMachine :=
  if isHangup event then hangup cfg m else m

def ModemRedial.onEvent (m : EcallStateMachine) : TelEvent → EcallStateMachine
  | .onTimerExpiry .t9 => m.expiryTimer .t9
  | .onTimerExpiry .t10 => m.expiryTimer .t10
  | _ => m

def DecodeSendMSD.onEvent (m : EcallStateMachine) (event : TelEvent) : EcallStateMachine :=
  let m := if (cfg.parseVectortoString .t5Failed ∨ cfg.eCallRedialConfig = .callDrop) ∧
      event = .onTimerExpiry .t5 then
    let m := (m.expiryTimer .t5).msdTransmissionStatus .failure
    if cfg.eCallRedialConfig = .callDrop then
      changeState cfg m .psapCallback (PSAPCallback.onEnter cfg)
    else changeState cfg m .callConversation (CallConversation.onEnter cfg)
    else m
  if isHangup event then hangup cfg m else m

def CRCCheckonMSD.onEvent (m : EcallStateMachine) (event : TelEvent) : EcallStateMachine :=
  let m := if event = .onTimerExpiry .t7 then
    changeState cfg
      (((m.msdTransmissionStatus .llNackDueToT7Expiry).expiryTimer .t7).msdTransmissionStatus
        .failure) .callConversation (CallConversation.onEnter cfg) else m
  if isHangup event then hangup cfg m else m

def DecodeMSD.onEvent (m : EcallStateMachine) (event : TelEvent) : EcallStateMachine :=
  let m := if ¬ cfg.isCustomNumbereCall ∧ ¬ cfg.isNGeCall ∧ event = .onTimerExpiry .t6 then
    changeState cfg ((m.expiryTimer .t6).msdTransmissionStatus .failure) .callConversation
      (CallConversation.onEnter cfg) else m
  if isHangup event then
    let m := m.changeCallState .ended
    let m := if (cfg.isCustomNumbereCall ∧ ¬ cfg.isNGeCall) ∨
        (¬ cfg.isCustomNumbereCall ∧ cfg.isNGeCall) ∨
        (¬ cfg.isCustomNumbereCall ∧ ¬ cfg.isNGeCall) then m.sendEvent .t2 .stop else m
    changeState cfg m .psapCallback (PSAPCallback.onEnter cfg)
  else m

def PSAPCallback.onEvent (m : EcallStateMachine) : TelEvent → EcallStateMachine
  | .onTimerExpiry .t9 => if m.mode ≠ .eCallOnly then stop cfg (m.expiryTimer .t9) else m
  | .onTimerExpiry .t10 =>
    let m := m.expiryTimer .t10
    if m.mode = .eCallOnly then stop cfg m else m
  | .onNetworkDeregistrationRequest => m.sendEvent .t10 .stop
  | _ => m

def CallConversation.onEvent (m : EcallStateMachine) : TelEvent → EcallStateMachine
  | .onTimerExpiry .t2 =>
    changeState cfg ((m.expiryTimer .t2).changeCallState .ended) .psapCallback
      (PSAPCallback.onEnter cfg)
  | .hangupRequestFromUser | .hangupRequestFromPsap =>
    changeState cfg m .psapCallback (PSAPCallback.onEnter cfg)
  | .msdPullRequestFromPsap .csECall =>
    changeState cfg m.beginUpdate .decodeSendMSD (DecodeSendMSD.onEnter cfg)
  | .msdPullRequestFromPsap .ngECall =>
    let m := m.beginUpdate
    let m := if ¬ cfg.isCustomNumbereCall then m.msdTransmissionStatus .outbandStarted else m
    (m.msdTransmissionStatus .outbandSuccess).setUpdateInProgress false
  | _ => m

/-- The event goes to the current state. A machine that was stopped has none; the code follows a
null pointer there. -/
def onEvent (m : EcallStateMachine) (event : TelEvent) : EcallStateMachine :=
  match m.currentState with
  | some .callConnect => CallConnect.onEvent cfg m event
  | some .modemRedial => ModemRedial.onEvent m event
  | some .decodeSendMSD => DecodeSendMSD.onEvent cfg m event
  | some .crcCheckOnMSD => CRCCheckonMSD.onEvent cfg m event
  | some .decodeMSD => DecodeMSD.onEvent cfg m event
  | some .psapCallback => PSAPCallback.onEvent cfg m event
  | some .callConversation => CallConversation.onEvent cfg m event
  | none => m

/-- What comes to the machine. A thread of a timer wakes, a party hangs up, the PSAP pulls the
MSD, the network is deregistered, or the phone is given another operating mode. -/
inductive Input
  | wake (timer : HlapTimer)
  | hangupFromUser
  | hangupFromPsap
  | msdPull (name : PullName)
  | requestNetworkDeregistration
  | setECallOperatingMode (mode : ECallMode)
deriving DecidableEq, Repr

def step (m : EcallStateMachine) : Input → EcallStateMachine
  | .wake timer =>
    -- `triggerTimerExpiry` is called for a timer that is recorded as active.
    if m.status timer = .active then
      onEvent cfg { m with status := m.status.updateEcallHlapTimer timer .inactive }
        (.onTimerExpiry timer)
    else m
  | .hangupFromUser => onEvent cfg m .hangupRequestFromUser
  | .hangupFromPsap => onEvent cfg m .hangupRequestFromPsap
  | .msdPull name => onEvent cfg m (.msdPullRequestFromPsap name)
  | .requestNetworkDeregistration =>
    if m.status .t10 = .active then onEvent cfg m .onNetworkDeregistrationRequest else m
  | .setECallOperatingMode mode => { m with mode := mode }

/-! ## Coming to an end -/

attribute [local simp] startTimer sendEvent expiryTimer request changeCallState onECallRedial
  msdTransmissionStatus setUpdateInProgress

variable {cfg} {m : EcallStateMachine}

theorem changeState_eq {state : StateID} (hstarted : m.started = true)
    (hne : m.currentState ≠ some state) (onEnter : EcallStateMachine → EcallStateMachine) :
    changeState cfg m state onEnter = onEnter { onExit cfg m with currentState := some state } := by
  rw [changeState, if_neg (not_not.mpr hstarted), if_neg hne]

theorem changeState_self {state : StateID} (hstate : m.currentState = some state)
    (onEnter : EcallStateMachine → EcallStateMachine) : changeState cfg m state onEnter = m := by
  rw [changeState, if_pos hstate, ite_self]

theorem currentState_ne {state : StateID} (hstate : m.currentState = some state)
    (other : StateID) (hne : state ≠ other) : m.currentState ≠ some other :=
  fun hother => hne (Option.some.inj (hstate.symm.trans hother))

theorem onExit_of_ne (hconnect : m.currentState ≠ some .callConnect)
    (hcrc : m.currentState ≠ some .crcCheckOnMSD) : onExit cfg m = m := by
  unfold onExit
  split
  · contradiction
  · contradiction
  · rfl

theorem onExit_started : (onExit cfg m).started = m.started := by
  unfold onExit CallConnect.onExit CRCCheckonMSD.onExit
  repeat' split
  all_goals rfl

theorem onExit_updateInProgress : (onExit cfg m).updateInProgress = m.updateInProgress := by
  unfold onExit CallConnect.onExit CRCCheckonMSD.onExit
  repeat' split
  all_goals rfl

theorem onExit_eventId : (onExit cfg m).eventId = m.eventId := by
  unfold onExit CallConnect.onExit CRCCheckonMSD.onExit
  repeat' split
  all_goals rfl

/-- What a state leaves alone that only tells the call service about the end of the call. -/
structure Tells (m m' : EcallStateMachine) : Prop where
  currentState : m'.currentState = m.currentState
  started : m'.started = m.started
  eventId : m'.eventId = m.eventId
  updateInProgress : m'.updateInProgress = m.updateInProgress
  status : ∀ timer, timer ≠ .t9 → timer ≠ .t10 → m'.status timer = m.status timer

theorem Tells.refl (m : EcallStateMachine) : Tells m m := ⟨rfl, rfl, rfl, rfl, fun _ _ _ => rfl⟩

theorem Tells.trans {m m' m'' : EcallStateMachine} (h : Tells m m') (h' : Tells m' m'') :
    Tells m m'' where
  currentState := h'.currentState.trans h.currentState
  started := h'.started.trans h.started
  eventId := h'.eventId.trans h.eventId
  updateInProgress := h'.updateInProgress.trans h.updateInProgress
  status timer h9 h10 := (h'.status timer h9 h10).trans (h.status timer h9 h10)

theorem Tells.request {m m' : EcallStateMachine} (h : Tells m m') (r : ServiceRequest) :
    Tells m (m'.request r) := h.trans ⟨rfl, rfl, rfl, rfl, fun _ _ _ => rfl⟩

theorem Tells.startTimer {m m' : EcallStateMachine} (h : Tells m m') {timer : HlapTimer}
    (htimer : timer = .t9 ∨ timer = .t10) : Tells m (m'.startTimer timer) := by
  refine h.trans ⟨rfl, rfl, rfl, rfl, fun other h9 h10 => ?_⟩
  apply HlapStatus.startTimer_of_ne _ _ h9 h10
  rcases htimer with rfl | rfl
  · exact h9
  · exact h10

theorem Tells.sendEvent {m m' : EcallStateMachine} (h : Tells m m') (r : TimerRequest) :
    Tells m (m'.sendEvent .t10 r) :=
  h.trans ⟨rfl, rfl, rfl, rfl, fun _ _ h10 => HlapStatus.sendEvent_of_ne _ h10 r⟩

theorem tells_redialAttempt (m : EcallStateMachine) (dialAttempts : Nat) :
    Tells m (redialAttempt cfg m dialAttempts) := by
  have hrefl := Tells.refl m
  unfold redialAttempt
  dsimp only
  split_ifs
  · exact ((((hrefl.sendEvent .start).request _).request _).sendEvent .stop).request _
  · exact (((hrefl.sendEvent .start).request _).request _).request _
  · exact (((hrefl.request _).request _).sendEvent .stop).request _
  · exact ((hrefl.request _).request _).request _
  · exact (((hrefl.sendEvent .start).request _).request _).request _
  · exact ((hrefl.request _).request _).request _
  · exact (((hrefl.request _).request _).request _).startTimer (.inr rfl)
  · exact ((hrefl.request _).request _).request _

theorem tells_modemRedial (m : EcallStateMachine) : Tells m (ModemRedial.onEnter cfg m) := by
  unfold ModemRedial.onEnter
  generalize List.range' 1 cfg.getConfiguredRedialAttempts = attempts
  induction attempts generalizing m with
  | nil => exact Tells.refl m
  | cons attempt attempts ih => exact (tells_redialAttempt m attempt).trans (ih _)

/-- The call is over: the machine `m` has come to rest as `m'`. -/
structure Ends (cfg : EcallConfig) (m m' : EcallStateMachine) : Prop where
  currentState : m'.currentState = some .psapCallback ∨ m'.currentState = some .modemRedial
  started : m'.started = true
  updateInProgress : m'.updateInProgress = m.updateInProgress
  t2 : m'.status .t2 = if cfg.eCallRedialConfig = .callOrig then m.status .t2 else .inactive
  status : ∀ timer, timer ≠ .t2 → timer ≠ .t9 → timer ≠ .t10 → m'.status timer = m.status timer

theorem Ends.tells {m' m'' : EcallStateMachine} (h : Ends cfg m m') (htells : Tells m' m'') :
    Ends cfg m m'' where
  currentState := htells.currentState ▸ h.currentState
  started := htells.started.trans h.started
  updateInProgress := htells.updateInProgress.trans h.updateInProgress
  t2 := (htells.status .t2 nofun nofun).trans h.t2
  status timer h2 h9 h10 := (htells.status timer h9 h10).trans (h.status timer h2 h9 h10)

theorem ends_of_callOrig {m' : EcallStateMachine} (hstarted : m.started = true)
    (hstate : m.currentState = some .psapCallback) (htells : Tells m m')
    (horig : cfg.eCallRedialConfig = .callOrig) : Ends cfg m m' where
  currentState := .inl (htells.currentState.trans hstate)
  started := htells.started.trans hstarted
  updateInProgress := htells.updateInProgress
  t2 := (htells.status .t2 nofun nofun).trans (if_pos horig).symm
  status timer _ := htells.status timer

theorem ends_of_stop {m' : EcallStateMachine} (hstarted : m.started = true)
    (hstate : m.currentState = some .psapCallback) (htells : Tells m m')
    (horig : cfg.eCallRedialConfig ≠ .callOrig) : Ends cfg m (m'.sendEvent .t2 .stop) where
  currentState := .inl (htells.currentState.trans hstate)
  started := htells.started.trans hstarted
  updateInProgress := htells.updateInProgress
  t2 := (HlapStatus.sendEvent_stop_self m'.status .t2).trans (if_neg horig).symm
  status timer h2 h9 h10 :=
    (HlapStatus.sendEvent_of_ne m'.status h2 .stop).trans (htells.status timer h9 h10)

/-- The machine goes on to the state of the redial. -/
theorem Ends.modemRedial {m' : EcallStateMachine} (h : Ends cfg m m') :
    Ends cfg m (changeState cfg m' .modemRedial (ModemRedial.onEnter cfg)) := by
  rcases h.currentState with hstate | hstate
  · have hexit : onExit cfg m' = m' :=
      onExit_of_ne (currentState_ne hstate _ nofun) (currentState_ne hstate _ nofun)
    rw [changeState_eq h.started (currentState_ne hstate .modemRedial nofun), hexit]
    have hentered : Ends cfg m { m' with currentState := some .modemRedial } :=
      ⟨.inr rfl, h.started, h.updateInProgress, h.t2, h.status⟩
    exact hentered.tells (tells_modemRedial _)
  · rw [changeState_self hstate]
    exact h

theorem ends_psapCallback (hstarted : m.started = true)
    (hstate : m.currentState = some .psapCallback) : Ends cfg m (PSAPCallback.onEnter cfg m) := by
  unfold PSAPCallback.onEnter
  extract_lets m₁ m₂ mstop m₃ m₄
  have htells : Tells m m₂ := by
    have h₁ : Tells m m₁ := (Tells.refl m).startTimer (.inl rfl)
    unfold m₂
    split_ifs
    · exact h₁.startTimer (.inr rfl)
    · exact h₁
  have h₃ : Ends cfg m m₃ := by
    unfold m₃
    split_ifs with horig hdrop
    · exact ends_of_callOrig hstarted hstate (htells.request _) horig
    · exact (ends_of_stop hstarted hstate htells horig).tells ((Tells.refl _).request _)
    · exact ends_of_stop hstarted hstate htells horig
  have h₄ : Ends cfg m m₄ := h₃.tells ((Tells.refl _).request _)
  split_ifs with hsuccess
  · exact h₄.modemRedial
  · exact h₄

/-- The call ends from any state but the callback itself. -/
theorem ends_changeState (hstarted : m.started = true)
    (hne : m.currentState ≠ some .psapCallback) :
    Ends cfg (onExit cfg m) (changeState cfg m .psapCallback (PSAPCallback.onEnter cfg)) := by
  rw [changeState_eq hstarted hne]
  have h : Ends cfg { onExit cfg m with currentState := some .psapCallback }
      (PSAPCallback.onEnter cfg { onExit cfg m with currentState := some .psapCallback }) :=
    ends_psapCallback (onExit_started.trans hstarted) rfl
  exact ⟨h.currentState, h.started, h.updateInProgress, h.t2, h.status⟩

/-! ## Call setup -/

/-- A machine that has been set up and enters the sending of the MSD. -/
structure SetUp (cfg : EcallConfig) (st : HlapStatus) (m : EcallStateMachine) : Prop where
  currentState : m.currentState = some .decodeSendMSD
  started : m.started = true
  eventId : m.eventId = .none
  updateInProgress : m.updateInProgress = false
  status : m.status =
    if ¬ cfg.isNGeCall ∧ cfg.isMsdTransmitted then
      if ¬ cfg.parseVectortoString .t5Failed ∧ cfg.eCallRedialConfig ≠ .callDrop then
        (st.startTimer .t2).sendEvent .t5 .start
      else (st.startTimer .t2).startTimer .t5
    else st.startTimer .t2

theorem exists_start_eq (st : HlapStatus) (mode : ECallMode)
    (horig : cfg.eCallRedialConfig ≠ .callOrig) :
    ∃ m, SetUp cfg st m ∧ start cfg st mode = DecodeSendMSD.onEnter cfg m := by
  have hstart : start cfg st mode =
      CallConnect.onEnter cfg ⟨some .callConnect, true, .none, false, st, mode, []⟩ := rfl
  rw [hstart]
  unfold CallConnect.onEnter
  extract_lets m₁ m₂ m₃
  rw [if_neg horig]
  -- Whether the service is told about a redial concerns the requests alone.
  obtain ⟨requests, hm₃⟩ : ∃ requests,
      m₃ = ⟨some .callConnect, true, .none, false, st, mode, requests⟩ := by
    unfold m₃
    split_ifs
    · exact ⟨_, rfl⟩
    · exact ⟨_, rfl⟩
  have hne : (m₃.startTimer .t2).currentState ≠ some .decodeSendMSD := by
    rw [hm₃]
    nofun
  rw [changeState_eq (by rw [hm₃]; rfl) hne, hm₃]
  refine ⟨_, ⟨rfl, onExit_started, onExit_eventId, onExit_updateInProgress, ?_⟩, rfl⟩
  show (CallConnect.onExit cfg _).status = _
  unfold CallConnect.onExit
  split_ifs <;> rfl

theorem exists_start_eq_of_callOrig (st : HlapStatus) (mode : ECallMode)
    (horig : cfg.eCallRedialConfig = .callOrig) :
    ∃ m, start cfg st mode = changeState cfg m .psapCallback (PSAPCallback.onEnter cfg) ∧
      m.currentState = some .callConnect ∧ m.started = true ∧ m.status = st := by
  have hstart : start cfg st mode =
      CallConnect.onEnter cfg ⟨some .callConnect, true, .none, false, st, mode, []⟩ := rfl
  refine ⟨_, hstart.trans (if_pos horig), rfl, rfl, rfl⟩

end EcallStateMachine

end Tel

end SatComm
