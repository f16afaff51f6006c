import SatComm.Power.Acks

/-!
# The slaves of the TCU-activity server

Every slave is a process with a `PowerGrpcClient`, which the updates of the server reach one after
the other. An update that brings the state the client already has is dropped. One that brings
another is told to the listeners of the application; where there are none the library acknowledges
it.
-/

namespace SatComm

namespace Power

/-- The client side of a slave. -/
structure Client where
  clientName : String
  machineName : MachineName
  state : TcuActivityState
  /-- What `getActivityState` returns. -/
  currentTcuState : TcuActivityState
  hasListeners : Bool
  /-- The updates that are on their way. -/
  updates : List TcuActivityState
deriving DecidableEq, Repr

namespace Client

def info (c : Client) : ClientInfo := ⟨c.clientName, c.machineName⟩

/-- The stream of the machine brings one more update. -/
def push (state : TcuActivityState) (machineName : MachineName) (c : Client) : Client :=
  if c.info.expected machineName then { c with updates := c.updates ++ [state] } else c

/-- `sendActivityStateAck` of the client, for a positive or a negative answer. -/
def ackType? (positive : Bool) (state : TcuActivityState) : Option AckType :=
  match positive, state with
  | true, .suspend => some .ackSuspend
  | true, .shutdown => some .ackShutdown
  | false, .suspend => some .nackSuspend
  | false, .shutdown => some .nackShutdown
  | _, .resume => none
  | _, .unknown => none

/-- `onTcuStateUpdate`, with the acknowledgement that it sends. -/
def onTcuStateUpdate (c : Client) (state : TcuActivityState) : Client × Option AckType :=
  ({ c with currentTcuState := state },
    if c.hasListeners then none else if state = .resume then none else ackType? true state)

def handleTcuStateUpdateEvent (c : Client) (state : TcuActivityState) :
    Client × Option AckType :=
  if c.state = state then (c, none) else { c with state := state }.onTcuStateUpdate state

/-- The state that a client has when all updates have come. -/
def last (c : Client) : TcuActivityState := c.updates.getLast?.getD c.state

end Client

namespace PowerManager

/-- The updates that a step of the server sends to the slaves: `notifySlavesOnStateUpdate`. -/
def notifies (m : PowerManager) : Event → Option (TcuActivityState × MachineName)
  | .sendActivityState state machineName configured =>
    if state = .unknown then none
    else if state = m.machState machineName then
      if state = .resume ∧ (m.localMachState ≠ .resume ∨ m.withinSuspendTimeout) then
        some (.resume, machineName)
      else none
    else if configured = .success ∧ state ≠ .resume then some (state, machineName)
    else none
  | .beginTask =>
    if m.busy then none
    else
      match m.queue with
      | .doResume machineName :: _ => some (.resume, machineName)
      | _ => none
  | _ => none

end PowerManager

/-- A request of the master, or a task of the server. -/
def Event.ofMaster : Event → Bool
  | .initService clientType _ _ _ => clientType = .master
  | .deregisterFromServer clientType _ => clientType = .master
  | .sendActivityState _ _ _ => true
  | .sendActivityStateAck _ _ => false
  | .beginTask => true
  | .collect _ => true
  | .timeout _ => true

structure Network where
  server : PowerManager
  clients : List Client
deriving DecidableEq, Repr

inductive Label
  /-- A slave registers; it gets updates where the service is available, and asks for the state. -/
  | connect (clientName machName : String) (configured : Option ServiceStatus)
  | disconnect (i : Nat)
  /-- A slave that found the service unavailable is gone. -/
  | giveUp (clientName : String)
  | server (e : Event)
  /-- The next update reaches a slave. -/
  | deliver (i : Nat)
  /-- An application that has listeners answers. -/
  | answer (i : Nat) (positive : Bool) (state : TcuActivityState)
  | listen (i : Nat) (hasListeners : Bool)
deriving DecidableEq, Repr

namespace Network

def new : Network := ⟨PowerManager.new, []⟩

/-- What the slaves get of a step of the server. -/
def push (clients : List Client) : Option (TcuActivityState × MachineName) → List Client
  | some (state, machineName) => clients.map (Client.push state machineName)
  | none => clients

def connect (w : Network) (clientName machName : String) (configured : Option ServiceStatus) :
    Network :=
  let server := w.server.initService .slave clientName machName configured
  match machine? machName with
  | some machineName =>
    if configured = some .available then
      let state := server.machState machineName
      ⟨server, w.clients ++ [⟨clientName, machineName, state, state, false, []⟩]⟩
    else ⟨server, w.clients⟩
  | none => ⟨server, w.clients⟩

def acknowledge (m : PowerManager) (clientName : String) : Option AckType → PowerManager
  | some ackType => m.sendActivityStateAck clientName ackType
  | none => m

def deliver (w : Network) (i : Nat) (c : Client) (state : TcuActivityState)
    (updates : List TcuActivityState) : Network :=
  let r := { c with updates := updates }.handleTcuStateUpdateEvent state
  ⟨acknowledge w.server c.clientName r.2, w.clients.set i r.1⟩

def step (w : Network) : Label → Option Network
  | .connect clientName machName configured => some (w.connect clientName machName configured)
  | .disconnect i =>
    match w.clients[i]? with
    | some c =>
      some ⟨w.server.deregisterFromServer .slave c.clientName, w.clients.eraseIdx i⟩
    | none => none
  | .giveUp clientName =>
    if clientName ∈ w.clients.map Client.clientName then none
    else some { w with server := w.server.deregisterFromServer .slave clientName }
  | .server e =>
    if e.ofMaster then some ⟨w.server.step e, push w.clients (w.server.notifies e)⟩ else none
  | .deliver i =>
    match w.clients[i]? with
    | some c =>
      match c.updates with
      | state :: updates => some (w.deliver i c state updates)
      | [] => none
    | none => none
  | .answer i positive state =>
    match w.clients[i]? with
    | some c =>
      if c.hasListeners then
        some { w with
          server := acknowledge w.server c.clientName (Client.ackType? positive state) }
      else none
    | none => none
  | .listen i hasListeners =>
    match w.clients[i]? with
    | some c => some { w with clients := w.clients.set i { c with hasListeners := hasListeners } }
    | none => none

/-- No task waits or runs. -/
def Idle (w : Network) : Prop := w.server.queue = [] ∧ w.server.threads = []

/-- All updates have come. -/
def Drained (w : Network) : Prop := ∀ c ∈ w.clients, c.updates = []

/-- The master connects and makes its requests, slaves connect and listeners change when no task
waits or runs; so no RESUME comes while a reported cycle waits for one. A request comes when the
updates of the one before it have come, and the two seconds before a report are enough for the
updates. Slaves have names of their own. -/
def Paced (w : Network) : Label → Prop
  | .connect clientName _ _ => w.Idle ∧ clientName ∉ w.server.slaves.map ClientInfo.clientName
  | .server (.initService _ _ _ _) => w.Idle
  | .server (.sendActivityState _ _ _) => w.Idle ∧ w.Drained
  | .server (.collect _) => w.Drained
  | .listen _ _ => w.Idle
  | _ => True

end Network

namespace Client

theorem expected_iff (c : Client) (machineName : MachineName) :
    c.info.expected machineName ↔ machineName = .machAll ∨ c.machineName = .machLocal := by
  cases machineName <;> cases hc : c.machineName <;> simp [ClientInfo.expected, info, hc]

section Handle

variable (c : Client) (state : TcuActivityState)

@[simp]
theorem clientName_handle :
    (c.handleTcuStateUpdateEvent state).1.clientName = c.clientName := by
  rw [handleTcuStateUpdateEvent]
  split <;> rfl

@[simp]
theorem machineName_handle :
    (c.handleTcuStateUpdateEvent state).1.machineName = c.machineName := by
  rw [handleTcuStateUpdateEvent]
  split <;> rfl

@[simp]
theorem hasListeners_handle :
    (c.handleTcuStateUpdateEvent state).1.hasListeners = c.hasListeners := by
  rw [handleTcuStateUpdateEvent]
  split <;> rfl

@[simp]
theorem updates_handle : (c.handleTcuStateUpdateEvent state).1.updates = c.updates := by
  rw [handleTcuStateUpdateEvent]
  split <;> rfl

@[simp]
theorem state_handle : (c.handleTcuStateUpdateEvent state).1.state = state := by
  rw [handleTcuStateUpdateEvent]
  split
  · assumption
  · rfl

theorem currentTcuState_handle (h : c.currentTcuState = c.state) :
    (c.handleTcuStateUpdateEvent state).1.currentTcuState = state := by
  rw [handleTcuStateUpdateEvent]
  split
  · rename_i hstate
    exact h.trans hstate
  · rfl

/-- The library acknowledges what is news to it where the application does not listen. -/
theorem ack_handle (hlowered : state = .suspend ∨ state = .shutdown)
    (hsilent : c.hasListeners = false) :
    (c.handleTcuStateUpdateEvent state).2 =
      if c.state = state then none else ackType? true state := by
  rw [handleTcuStateUpdateEvent]
  split
  · rfl
  · rcases hlowered with rfl | rfl
    · simp [onTcuStateUpdate, hsilent]
    · simp [onTcuStateUpdate, hsilent]

end Handle

theorem last_nil {c : Client} (h : c.updates = []) : c.last = c.state := by
  rw [last, h]
  rfl

@[simp]
theorem info_push (state : TcuActivityState) (machineName : MachineName) (c : Client) :
    (c.push state machineName).info = c.info := by
  rw [push]
  split <;> rfl

theorem last_push (state : TcuActivityState) (machineName : MachineName) (c : Client) :
    (c.push state machineName).last =
      if c.info.expected machineName then state else c.last := by
  rw [push]
  split
  · simp [last]
  · rfl

/-- The last update stays the last one when the first comes. -/
theorem last_handle (c : Client) {state : TcuActivityState} {updates : List TcuActivityState}
    (h : c.updates = state :: updates) :
    ({ c with updates := updates }.handleTcuStateUpdateEvent state).1.last = c.last := by
  rw [last, updates_handle, state_handle, last, h, List.getLast?_cons]
  rfl

end Client

namespace PowerManager

/-- A cycle that is to be reported. -/
def AtTask (m : PowerManager) (state : TcuActivityState) (machineName : MachineName) : Prop :=
  ∃ acked, (m.queue = [.initiateSuspend ⟨state, machineName, acked⟩] ∧ m.threads = []) ∨
    (m.queue = [] ∧ m.threads = [⟨⟨state, machineName, acked⟩, true, false, false⟩])

variable {m : PowerManager} {state : TcuActivityState} {machineName : MachineName}

theorem AtTask.windowOpen (h : m.AtTask state machineName) : m.windowOpen = false := by
  obtain ⟨acked, ⟨-, hthreads⟩ | ⟨-, hthreads⟩⟩ := h
  · simp [PowerManager.windowOpen, hthreads]
  · simp [PowerManager.windowOpen, hthreads]

theorem AtTask.not_idle (h : m.AtTask state machineName) :
    ¬ (m.queue = [] ∧ m.threads = []) := by
  rintro ⟨hq, ht⟩
  obtain ⟨acked, ⟨hqueue, -⟩ | ⟨-, hthreads⟩⟩ := h
  · rw [hq] at hqueue
    cases hqueue
  · rw [ht] at hthreads
    cases hthreads

theorem machState_doResume (m : PowerManager) (machineName : MachineName) (c : Client) :
    (m.doResume machineName).machState c.machineName =
      if c.info.expected machineName then .resume else m.machState c.machineName := by
  cases machineName <;> cases hc : c.machineName <;>
    simp [doResume, machState, ClientInfo.expected, Client.info, hc]

theorem machState_assign (m : PowerManager) (cycle : Cycle) (c : Client) :
    (m.assign cycle).machState c.machineName =
      if c.info.expected cycle.machineName then cycle.state else m.machState c.machineName := by
  cases hm : cycle.machineName <;> cases hc : c.machineName <;>
    simp [assign, machState, ClientInfo.expected, Client.info, hc, hm]

/-- What an acknowledgement leaves as it is. -/
structure SameStates (m m' : PowerManager) : Prop where
  slaves : m'.slaves = m.slaves
  localMachState : m'.localMachState = m.localMachState
  allMachState : m'.allMachState = m.allMachState
  window : m'.withinSuspendTimeout = m.withinSuspendTimeout
  received : m'.resumeReceivedWithinTimeout = m.resumeReceivedWithinTimeout
  considerAck : m'.considerAck = m.considerAck
  noack : m'.noackClients = m.noackClients

theorem SameStates.machState {m m' : PowerManager} (h : SameStates m m')
    (machineName : MachineName) : m'.machState machineName = m.machState machineName := by
  cases machineName
  · exact h.localMachState
  · exact h.allMachState

end PowerManager

namespace Network

theorem sameStates_acknowledge (m : PowerManager) (clientName : String) (ack : Option AckType) :
    PowerManager.SameStates m (acknowledge m clientName ack) := by
  have hadd : ∀ ackType, PowerManager.SameStates m (m.addAck clientName ackType) := by
    intro ackType
    rw [PowerManager.addAck]
    split
    · split
      · exact ⟨rfl, rfl, rfl, rfl, rfl, rfl, rfl⟩
      · exact ⟨rfl, rfl, rfl, rfl, rfl, rfl, rfl⟩
    · exact ⟨rfl, rfl, rfl, rfl, rfl, rfl, rfl⟩
  cases ack with
  | none => exact ⟨rfl, rfl, rfl, rfl, rfl, rfl, rfl⟩
  | some ackType =>
    rw [acknowledge, PowerManager.sendActivityStateAck]
    split
    · exact ⟨rfl, rfl, rfl, rfl, rfl, rfl, rfl⟩
    rw [PowerManager.noteAck]
    split
    · obtain ⟨h1, h2, h3, h4, h5, h6, h7⟩ := hadd ackType
      exact ⟨h1, h2, h3, h4, h5, h6, h7⟩
    · exact hadd ackType

/-- The names that an acknowledgement puts on the lists of a cycle that is to be reported. -/
theorem mem_lists_acknowledge {m : PowerManager} (hwindow : m.windowOpen = false)
    (hconsider : m.considerAck = true) (clientName name : String) (ack : Option AckType) :
    (name ∈ (acknowledge m clientName ack).ackClients ↔
        name ∈ m.ackClients ∨ name = clientName ∧ ack.map AckType.positive = some true) ∧
      (name ∈ (acknowledge m clientName ack).nackClients ↔
        name ∈ m.nackClients ∨ name = clientName ∧ ack.map AckType.positive = some false) := by
  cases ack with
  | none => simp [acknowledge]
  | some ackType =>
    cases hpos : ackType.positive with
    | true =>
      simp [acknowledge, PowerManager.sendActivityStateAck, PowerManager.noteAck,
        PowerManager.addAck, hwindow, hconsider, hpos]
    | false =>
      simp [acknowledge, PowerManager.sendActivityStateAck, PowerManager.noteAck,
        PowerManager.addAck, hwindow, hconsider, hpos]

theorem atTask_acknowledge {m : PowerManager} {state : TcuActivityState}
    {machineName : MachineName} (h : m.AtTask state machineName) (clientName : String)
    (ack : Option AckType) : (acknowledge m clientName ack).AtTask state machineName := by
  cases ack with
  | none => exact h
  | some ackType =>
    have hwindow := h.windowOpen
    obtain ⟨acked, ⟨hqueue, hthreads⟩ | ⟨hqueue, hthreads⟩⟩ := h
    · cases hpos : ackType.positive with
      | true =>
        refine ⟨clientName :: acked, .inl ?_⟩
        by_cases hconsider : m.considerAck <;>
          simp [acknowledge, PowerManager.sendActivityStateAck, PowerManager.noteAck,
            PowerManager.addAck, hwindow, hconsider, hpos, hqueue, hthreads, Task.acknowledge,
            Cycle.acknowledge]
      | false =>
        refine ⟨acked, .inl ?_⟩
        by_cases hconsider : m.considerAck <;>
          simp [acknowledge, PowerManager.sendActivityStateAck, PowerManager.noteAck,
            PowerManager.addAck, hwindow, hconsider, hpos, hqueue, hthreads]
    · cases hpos : ackType.positive with
      | true =>
        refine ⟨clientName :: acked, .inr ?_⟩
        by_cases hconsider : m.considerAck <;>
          simp [acknowledge, PowerManager.sendActivityStateAck, PowerManager.noteAck,
            PowerManager.addAck, hwindow, hconsider, hpos, hqueue, hthreads,
            SuspendThread.acknowledge, Cycle.acknowledge]
      | false =>
        refine ⟨acked, .inr ?_⟩
        by_cases hconsider : m.considerAck <;>
          simp [acknowledge, PowerManager.sendActivityStateAck, PowerManager.noteAck,
            PowerManager.addAck, hwindow, hconsider, hpos, hqueue, hthreads]

end Network

end Power

end SatComm
