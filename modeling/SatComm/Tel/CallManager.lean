import SatComm.Runs.Along

/-!
# The call list of the simulated dialer

`CallManagerServerImpl` keeps its calls in `calls_`, a vector of pointers shared by both SIM
slots. A call is looked up by its index and its phone, and an ended call is removed later, by a
task that looks for the index alone. While an eCall redials, the call that such a task removes is
kept in `redialECallCache_`, and the next change of a state to dialing waits for a removal and
puts the kept call back.

A handler runs as one step. What it leaves to other threads are steps of their own: the tasks
that remove ended calls, and the threads that wait for a removal. The eCall state machine acts on
the call list through `changeCallState` and `onECallRedial` only, and every call of these is
allowed at every time.
-/

namespace SatComm

namespace Tel

inductive CallState
  | idle | active | onHold | dialing | incoming | waiting | alerting | ended
deriving DecidableEq, Repr

inductive CallDirection
  | incoming | outgoing
deriving DecidableEq, Repr

inductive CallApi
  | makeECallWithMsd | makeTpsECallOverCSWithMsd | makeTpsECallOverIMS | makeECallWithRawMsd
  | makeTpsECallOverCSWithRawMsd | makeECallWithoutMsd | makeTpsECallOverCSWithoutMsd
  | updateEcallMsd | updateECallRawMsd | makeVoiceCall | makeRttVoiceCall
deriving DecidableEq, Repr

/-- `address` is the object that a `shared_ptr<CallInfo>` points to. -/
structure CallInfo where
  address : Nat
  callState : CallState
  index : Int
  callDirection : CallDirection
  remotePartyNumber : String
  phoneId : Int
  isRegulatoryeCall : Bool
  isMsdTransmitted : Bool
  isTpseCallOverIms : Bool
deriving DecidableEq, Repr

/-- A request for a call. The number is the one of the slot's configuration where the client
gives none. -/
structure CallRequest where
  phoneId : Int
  remotePartyNumber : String
  api : CallApi
  isMsdTransmitted : Bool
deriving DecidableEq, Repr

structure CallManager where
  calls : List CallInfo
  redialECallCache : Option CallInfo
  eCallRedialIsOngoing : Bool
  callEndOperationCompleted : Bool
  /-- The indices that the waiting removal tasks look for. -/
  removals : List Int
  /-- Phone and index of the changes to dialing that wait for a removal. -/
  redials : List (Int × Int)
  /-- The number of call objects made so far. -/
  allocated : Nat
deriving DecidableEq, Repr

namespace CallInfo

/-- The test of `findCallAndUpdateCallState` and of `findMatchingCall(slotId, callIndex)`. -/
def find (index phoneId : Int) (call : CallInfo) : Bool :=
  call.index == index && call.phoneId == phoneId

/-- The test of `findMatchingCall(callToCompare)`. -/
def «match» (remotePartyNumber : String) (phoneId : Int) (call : CallInfo) : Bool :=
  remotePartyNumber == call.remotePartyNumber && phoneId == call.phoneId

/-- A write to `callState` of the object at an address. -/
def write (address : Nat) (action : CallState) (call : CallInfo) : CallInfo :=
  if call.address = address then { call with callState := action } else call

end CallInfo

/-- The loop of `setCallIndexForNewCall`. -/
def nextIndex : List CallInfo → Int → Int
  | [], index => index
  | call :: calls, index => if call.index ≠ index then index else nextIndex calls (index + 1)

namespace CallManager

def new : CallManager where
  calls := []
  redialECallCache := none
  eCallRedialIsOngoing := false
  callEndOperationCompleted := false
  removals := []
  redials := []
  allocated := 0

def setCallIndexForNewCall (m : CallManager) : Int := nextIndex m.calls 1

def emplaceBack (m : CallManager) (call : CallInfo) : CallManager :=
  { m with calls := m.calls ++ [call], allocated := m.allocated + 1 }

/-- The call that `addNewCallDetails` makes. -/
def newCall (m : CallManager) (request : CallRequest) : CallInfo where
  address := m.allocated
  callState := .idle
  index := m.setCallIndexForNewCall
  callDirection := .outgoing
  remotePartyNumber := request.remotePartyNumber
  phoneId := request.phoneId
  isRegulatoryeCall :=
    request.api = .makeECallWithMsd || request.api = .makeECallWithRawMsd ||
      request.api = .makeECallWithoutMsd
  isMsdTransmitted := request.isMsdTransmitted
  isTpseCallOverIms := request.api = .makeTpsECallOverIMS

/-- Voice calls are always added, an eCall only if no call of its phone has its number. -/
def addNewCallDetails (m : CallManager) (request : CallRequest) : Option CallManager :=
  if request.api ≠ .makeVoiceCall ∧ request.api ≠ .makeRttVoiceCall then
    if ¬ m.calls.any (CallInfo.match request.remotePartyNumber request.phoneId) then
      some (m.emplaceBack (m.newCall request))
    else none
  else some (m.emplaceBack (m.newCall request))

/-- The call that `handleIncomingCallRequest` makes. -/
def incomingCall (m : CallManager) (phoneId : Int) (dialNumber : String) : CallInfo where
  address := m.allocated
  callState := if 1 < m.setCallIndexForNewCall then .waiting else .incoming
  index := m.setCallIndexForNewCall
  callDirection := .incoming
  remotePartyNumber := dialNumber
  phoneId := phoneId
  isRegulatoryeCall := false
  isMsdTransmitted := false
  isTpseCallOverIms := false

def handleIncomingCallRequest (m : CallManager) (phoneId : Int) (dialNumber : String) :
    Option CallManager :=
  if ¬ m.calls.any (CallInfo.match dialNumber phoneId) then
    some (m.emplaceBack (m.incomingCall phoneId dialNumber))
  else none

def findMatchingCall (m : CallManager) (slotId callIndex : Int) : Option CallInfo :=
  m.calls.find? (CallInfo.find callIndex slotId)

def writeCallState (m : CallManager) (address : Nat) (action : CallState) : CallManager :=
  { m with
    calls := m.calls.map (CallInfo.write address action)
    redialECallCache := m.redialECallCache.map (CallInfo.write address action) }

/-- The state is written to the first call found. -/
def findCallAndUpdateCallState (m : CallManager) (index : Int) (action : CallState)
    (phoneId : Int) : CallManager :=
  match m.calls.find? (CallInfo.find index phoneId) with
  | some call => m.writeCallState call.address action
  | none => m

/-- What `triggerCallInfoChangeEvent` does for the call at an index and a phone. Where there is
none the code follows a null pointer. -/
def triggerCallInfoChangeEvent (m : CallManager) (index phoneId : Int) : CallManager :=
  match m.calls.find? (CallInfo.find index phoneId) with
  | some call =>
    if call.callState = .ended then { m with removals := m.removals ++ [call.index] } else m
  | none => m

/-- The part of `changeCallState` that both branches have. -/
def update (m : CallManager) (phoneId : Int) (state : CallState) (index : Int) : CallManager :=
  (m.findCallAndUpdateCallState index state phoneId).triggerCallInfoChangeEvent index phoneId

/-- The kept call is put back. A null pointer would be followed by the very next walk over the
calls, so nothing is added where none is kept. -/
def reinsert (m : CallManager) : CallManager :=
  { m with
    calls := m.calls ++ m.redialECallCache.toList
    callEndOperationCompleted := false }

def changeCallState (m : CallManager) (phoneId : Int) (state : CallState) (index : Int) :
    CallManager :=
  if m.eCallRedialIsOngoing ∧ state = .dialing then
    if m.callEndOperationCompleted then m.reinsert.update phoneId state index
    else { m with redials := m.redials ++ [(phoneId, index)] }
  else m.update phoneId state index

/-- A thread that waited in `changeCallState` goes on. -/
def resumeRedial (m : CallManager) (phoneId index : Int) : CallManager :=
  if (phoneId, index) ∈ m.redials ∧ m.callEndOperationCompleted then
    { m.reinsert with redials := m.redials.erase (phoneId, index) }.update phoneId .dialing index
  else m

def changeRttModeOfCall (m : CallManager) (index phoneId : Int) : CallManager :=
  m.triggerCallInfoChangeEvent index phoneId

def onECallRedial (m : CallManager) (willRedial : Bool) : CallManager :=
  { m with eCallRedialIsOngoing := willRedial }

/-- The call that a removal task for the index erases. -/
def matchingCall (m : CallManager) (callIndex : Int) : Option CallInfo :=
  m.calls.find? fun call => call.index == callIndex

/-- A removal task: `findAndRemoveMatchingCall`, and `triggerCallListAfterCallEnd` where a call
was found. -/
def findAndRemoveMatchingCall (m : CallManager) (callIndex : Int) : CallManager :=
  match m.matchingCall callIndex with
  | some call =>
    { m with
      calls := m.calls.eraseP fun call => call.index == callIndex
      redialECallCache := if m.eCallRedialIsOngoing then some call else m.redialECallCache
      callEndOperationCompleted := true
      removals := m.removals.erase callIndex }
  | none => { m with removals := m.removals.erase callIndex }

end CallManager

/-- The steps of the dialer. `handleHangupRequest` is the part of that handler that ends a
regulatory eCall without a removal. -/
inductive Event
  | cleanUpService
  | makeCall (request : CallRequest)
  | makeECall (request : CallRequest)
  | handleIncomingCallRequest (phoneId : Int) (dialNumber : String)
  | changeCallState (phoneId : Int) (state : CallState) (index : Int)
  | resumeRedial (phoneId index : Int)
  | handleHangupRequest (phoneId callIndex : Int)
  | changeRttModeOfCall (index phoneId : Int)
  | onECallRedial (willRedial : Bool)
  | removal (callIndex : Int)
deriving DecidableEq, Repr

namespace CallManager

def step (m : CallManager) : Event → CallManager
  | .cleanUpService => { m with calls := [] }
  | .makeCall request => (m.addNewCallDetails request).getD m
  | .makeECall request =>
    if ¬ m.eCallRedialIsOngoing then (m.addNewCallDetails request).getD m else m
  | .handleIncomingCallRequest phoneId dialNumber =>
    (m.handleIncomingCallRequest phoneId dialNumber).getD m
  | .changeCallState phoneId state index => m.changeCallState phoneId state index
  | .resumeRedial phoneId index => m.resumeRedial phoneId index
  | .handleHangupRequest phoneId callIndex => m.findCallAndUpdateCallState callIndex .ended phoneId
  | .changeRttModeOfCall index phoneId => m.changeRttModeOfCall index phoneId
  | .onECallRedial willRedial => m.onECallRedial willRedial
  | .removal callIndex =>
    if callIndex ∈ m.removals then m.findAndRemoveMatchingCall callIndex else m

/-- The step makes a call and adds it. -/
def Enters (m : CallManager) : Event → Prop
  | .makeCall request => (m.addNewCallDetails request).isSome
  | .makeECall request => ¬ m.eCallRedialIsOngoing ∧ (m.addNewCallDetails request).isSome
  | .handleIncomingCallRequest phoneId dialNumber =>
    (m.handleIncomingCallRequest phoneId dialNumber).isSome
  | _ => False

/-- The step puts the kept call back. -/
def Redials (m : CallManager) : Event → Prop
  | .changeCallState _ state _ =>
    m.eCallRedialIsOngoing ∧ state = .dialing ∧ m.callEndOperationCompleted
  | .resumeRedial phoneId index => (phoneId, index) ∈ m.redials ∧ m.callEndOperationCompleted
  | _ => False

def indices (m : CallManager) : List Int := m.calls.map CallInfo.index

theorem eq_of_addNewCallDetails {m m' : CallManager} {request : CallRequest}
    (h : m.addNewCallDetails request = some m') : m' = m.emplaceBack (m.newCall request) := by
  unfold addNewCallDetails at h
  split_ifs at h <;> exact (Option.some.inj h).symm

theorem eq_of_handleIncomingCallRequest {m m' : CallManager} {phoneId : Int}
    {dialNumber : String} (h : m.handleIncomingCallRequest phoneId dialNumber = some m') :
    m' = m.emplaceBack (m.incomingCall phoneId dialNumber) := by
  unfold handleIncomingCallRequest at h
  split_ifs at h
  exact (Option.some.inj h).symm

/-- A step that makes a call appends one with the next index. -/
theorem Enters.step_eq {m : CallManager} {e : Event} (h : m.Enters e) :
    ∃ call : CallInfo, call.address = m.allocated ∧ call.index = m.setCallIndexForNewCall ∧
      m.step e = m.emplaceBack call := by
  cases e with
  | makeCall request =>
    obtain ⟨m', hm⟩ := Option.isSome_iff_exists.mp h
    refine ⟨m.newCall request, rfl, rfl, ?_⟩
    rw [step, hm, Option.getD_some, eq_of_addNewCallDetails hm]
  | makeECall request =>
    obtain ⟨m', hm⟩ := Option.isSome_iff_exists.mp h.2
    refine ⟨m.newCall request, rfl, rfl, ?_⟩
    rw [step, if_pos h.1, hm, Option.getD_some, eq_of_addNewCallDetails hm]
  | handleIncomingCallRequest phoneId dialNumber =>
    obtain ⟨m', hm⟩ := Option.isSome_iff_exists.mp h
    refine ⟨m.incomingCall phoneId dialNumber, rfl, rfl, ?_⟩
    rw [step, hm, Option.getD_some, eq_of_handleIncomingCallRequest hm]
  | _ => exact h.elim

/-- A step that puts the kept call back then makes a call dial. -/
theorem Redials.step_eq {m : CallManager} {e : Event} (h : m.Redials e) :
    ∃ redials phoneId index,
      m.step e = ({ m.reinsert with redials := redials }).update phoneId .dialing index := by
  cases e with
  | changeCallState phoneId state index =>
    obtain ⟨hongoing, rfl, hcompleted⟩ := h
    refine ⟨m.redials, phoneId, index, ?_⟩
    rw [step, changeCallState, if_pos ⟨hongoing, rfl⟩, if_pos hcompleted]
    rfl
  | resumeRedial phoneId index => exact ⟨_, _, _, if_pos h⟩
  | _ => exact h.elim

/-- The steps that add no call. -/
inductive Change (m : CallManager) : Event → CallManager → Prop
  | none (e : Event) : Change m e m
  | cleanUpService : Change m .cleanUpService { m with calls := [] }
  | update (phoneId : Int) (state : CallState) (index : Int)
      (h : ¬ (m.eCallRedialIsOngoing ∧ state = .dialing)) :
    Change m (.changeCallState phoneId state index) (m.update phoneId state index)
  | wait (phoneId index : Int) : Change m (.changeCallState phoneId .dialing index)
      { m with redials := m.redials ++ [(phoneId, index)] }
  | handleHangupRequest (phoneId callIndex : Int) :
    Change m (.handleHangupRequest phoneId callIndex)
      (m.findCallAndUpdateCallState callIndex .ended phoneId)
  | changeRttModeOfCall (index phoneId : Int) :
    Change m (.changeRttModeOfCall index phoneId) (m.triggerCallInfoChangeEvent index phoneId)
  | onECallRedial (willRedial : Bool) :
    Change m (.onECallRedial willRedial) (m.onECallRedial willRedial)
  | removal (callIndex : Int) (h : callIndex ∈ m.removals) :
    Change m (.removal callIndex) (m.findAndRemoveMatchingCall callIndex)

theorem change_step {m : CallManager} {e : Event} (henters : ¬ m.Enters e)
    (hredials : ¬ m.Redials e) : m.Change e (m.step e) := by
  cases e with
  | cleanUpService => exact .cleanUpService
  | makeCall request =>
    rw [step, Option.not_isSome_iff_eq_none.mp henters]
    exact .none _
  | makeECall request =>
    rw [step]
    split_ifs with hongoing
    · exact .none _
    · rw [Option.not_isSome_iff_eq_none.mp fun h => henters ⟨hongoing, h⟩]
      exact .none _
  | handleIncomingCallRequest phoneId dialNumber =>
    rw [step, Option.not_isSome_iff_eq_none.mp henters]
    exact .none _
  | changeCallState phoneId state index =>
    rw [step, changeCallState]
    split_ifs with hdialing hcompleted
    · exact absurd ⟨hdialing.1, hdialing.2, hcompleted⟩ hredials
    · obtain ⟨-, rfl⟩ := hdialing
      exact .wait phoneId index
    · exact .update phoneId state index hdialing
  | resumeRedial phoneId index =>
    have hstep : m.step (.resumeRedial phoneId index) = m := if_neg hredials
    rw [hstep]
    exact .none _
  | handleHangupRequest phoneId callIndex => exact .handleHangupRequest phoneId callIndex
  | changeRttModeOfCall index phoneId => exact .changeRttModeOfCall index phoneId
  | onECallRedial willRedial => exact .onECallRedial willRedial
  | removal callIndex =>
    rw [step]
    split_ifs with hpending
    · exact .removal callIndex hpending
    · exact .none _

end CallManager

end Tel

end SatComm
