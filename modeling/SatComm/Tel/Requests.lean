import SatComm.Tel.CallManager

/-!
# Call control requests

The handlers of the dialer service that move calls between their states. A `for` loop over
`calls_` goes through the positions of the list and looks at the call at each position when it
gets there; its state may have been changed by the loop itself.
-/

namespace SatComm

namespace Tel

def callIndexInvalid : Int := -1

namespace CallManager

/-- One turn of a loop over the calls. -/
def atCall (body : CallManager → CallInfo → CallManager) (m : CallManager) (position : Nat) :
    CallManager :=
  match m.calls[position]? with
  | some call => body m call
  | none => m

def forEachCall (body : CallManager → CallInfo → CallManager) (m : CallManager) : CallManager :=
  (List.range m.calls.length).foldl (atCall body) m

/-- The loop of `changeCallStateofActiveCalls`. -/
def holdActiveCalls (m : CallManager) (index : Int) : CallManager :=
  m.forEachCall fun m call =>
    if call.index ≠ index ∧ call.callState = .active then
      m.changeCallState call.phoneId .onHold call.index
    else m

/-- `newCall` is the last call with the index. -/
def changeCallStateofActiveCalls (m : CallManager) (index : Int) : CallManager :=
  match m.calls.reverse.find? fun call => call.index == index with
  | some newCall => (m.holdActiveCalls index).changeCallState newCall.phoneId .active newCall.index
  | none => m.holdActiveCalls index

def handleCallMachine (m : CallManager) (callInfo : CallInfo) : CallManager :=
  if callInfo.callDirection = .outgoing then
    let alerting := (m.changeCallState callInfo.phoneId .dialing callInfo.index).changeCallState
      callInfo.phoneId .alerting callInfo.index
    if m.calls.length = 1 then
      alerting.changeCallState callInfo.phoneId .active callInfo.index
    else alerting.changeCallStateofActiveCalls callInfo.index
  else m

def makeCall (m : CallManager) (request : CallRequest) : CallManager :=
  match m.addNewCallDetails request with
  | some m' => m'.handleCallMachine (m.newCall request)
  | none => m

/-- The incoming call and the task that reports its state. -/
def incoming (m : CallManager) (phoneId : Int) (dialNumber : String) : CallManager :=
  let callInfo := m.incomingCall phoneId dialNumber
  match m.handleIncomingCallRequest phoneId dialNumber with
  | some m' => m'.changeCallState callInfo.phoneId callInfo.callState callInfo.index
  | none => m

def answer (m : CallManager) (phoneId callIndex : Int) : CallManager :=
  match m.findMatchingCall phoneId callIndex with
  | some info =>
    if info.callState = .incoming then m.changeCallState info.phoneId .active info.index
    else if info.callState = .waiting then m.changeCallStateofActiveCalls info.index
    else m
  | none => m

def hangupWaitingOrBackgroundCalls (m : CallManager) (phoneId : Int) : CallManager :=
  m.forEachCall fun m call =>
    if call.phoneId = phoneId ∧ (call.callState = .onHold ∨ call.callState = .incoming) then
      m.changeCallState call.phoneId .ended call.index
    else m

def hangupForegroundgroundCalls (m : CallManager) (phoneId : Int) : CallManager :=
  m.forEachCall fun m call =>
    if call.phoneId = phoneId ∧ (call.callState = .active ∨ call.callState = .incoming) then
      m.changeCallState call.phoneId .ended call.index
    else m

def resumeBackgroundCalls (m : CallManager) (phoneId : Int) : CallManager :=
  match m.calls.find? fun call => call.phoneId == phoneId && call.callState == .waiting with
  | some call => m.changeCallState call.phoneId .active call.index
  | none =>
    match m.calls.find? fun call => call.callState == .onHold with
    | some call => m.changeCallState call.phoneId .active call.index
    | none => m

def getCallIndexOfActiveCall (m : CallManager) (phoneId : Int) : Int :=
  match m.calls.find? fun call => call.phoneId == phoneId && call.callState == .active with
  | some call => call.index
  | none => callIndexInvalid

/-- The index that the client gives is not read. -/
def holdCall (m : CallManager) (phoneId _callIndex : Int) : CallManager :=
  match m.calls.find? fun call =>
    call.phoneId == phoneId && call.index != 0 && call.callState == .active with
  | some call => m.changeCallState call.phoneId .onHold call.index
  | none => m

def swapCalls (m : CallManager) (callHoldIndex phoneIndex callActivateIndex : Int) :
    CallManager :=
  let activate (m : CallManager) (call : CallInfo) : CallManager :=
    if call.phoneId = phoneIndex ∧ call.index = callHoldIndex ∧ call.callState = .onHold then
      m.changeCallState call.phoneId .active call.index
    else m
  let hold (m : CallManager) (call : CallInfo) : CallManager :=
    if call.phoneId = phoneIndex ∧ call.index = callActivateIndex ∧ call.callState = .active then
      m.changeCallState call.phoneId .onHold call.index
    else m
  (List.range m.calls.length).foldl
    (fun m position => atCall hold (atCall activate m position) position) m

/-- The hangup of a regulatory eCall, or of an eCall over CS with an MSD, is left to the eCall
state machine. There is none before an eCall is made. -/
def hangup (m : CallManager) (phoneId callIndex : Int) : CallManager :=
  match m.findMatchingCall phoneId callIndex with
  | some info =>
    if info.isRegulatoryeCall ∨
        ¬ info.isRegulatoryeCall ∧ ¬ info.isTpseCallOverIms ∧ info.isMsdTransmitted then m
    else m.changeCallState info.phoneId .ended info.index
  | none => m

/-- `Reject` and `RejectWithSMS`. -/
def reject (m : CallManager) (phoneId callIndex : Int) : CallManager :=
  match m.findMatchingCall phoneId callIndex with
  | some info => m.changeCallState info.phoneId .ended info.index
  | none => m

end CallManager

/-- The requests that do not concern eCalls, and the removal tasks. -/
inductive Request
  | makeCall (request : CallRequest)
  | incoming (phoneId : Int) (dialNumber : String)
  | answer (phoneId callIndex : Int)
  | hold (phoneId callIndex : Int)
  | resume (phoneId callIndex : Int)
  | swap (callToHoldIndex phoneId callToActivateIndex : Int)
  | hangup (phoneId callIndex : Int)
  | hangupForegroundResumeBackground (phoneId : Int)
  | hangupWaitingOrBackground (phoneId : Int)
  | reject (phoneId callIndex : Int)
  | removal (callIndex : Int)
deriving DecidableEq, Repr

namespace CallManager

def serve (m : CallManager) : Request → CallManager
  | .makeCall request => m.makeCall request
  | .incoming phoneId dialNumber => m.incoming phoneId dialNumber
  | .answer phoneId callIndex => m.answer phoneId callIndex
  | .hold phoneId callIndex => m.holdCall phoneId callIndex
  | .resume phoneId callIndex =>
    m.swapCalls callIndex phoneId (m.getCallIndexOfActiveCall phoneId)
  | .swap callToHoldIndex phoneId callToActivateIndex =>
    m.swapCalls callToHoldIndex phoneId callToActivateIndex
  | .hangup phoneId callIndex => m.hangup phoneId callIndex
  | .hangupForegroundResumeBackground phoneId =>
    (m.hangupForegroundgroundCalls phoneId).resumeBackgroundCalls phoneId
  | .hangupWaitingOrBackground phoneId => m.hangupWaitingOrBackgroundCalls phoneId
  | .reject phoneId callIndex => m.reject phoneId callIndex
  | .removal callIndex =>
    if callIndex ∈ m.removals then m.findAndRemoveMatchingCall callIndex else m

end CallManager

end Tel

end SatComm
