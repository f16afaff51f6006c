import SatComm.Runs.Along
import SatComm.Runs.Maps

/-!
# The flows of a C-V2X client

The radio server numbers the flows it registers, SPS flows from 0 and event flows from 100, with the
lowest number that is free. The client keeps each number in a byte and holds its SPS flows, event
flows and TCP sockets, which use event flows, in maps of their own. Every call of the client is a
task that runs in a thread of its own, so that the requests to the server and the writes to the maps
of different tasks may come in any order.

Requests are delivered and sockets open. Null callbacks and a client that is not initialized make a
call fail at once, and are left out.
-/

namespace SatComm

namespace Cv2x

/-- What the client holds. -/
inductive Kind
  | sps
  | event
  | tcp
deriving DecidableEq, Repr

/-- The maps of the server. -/
inductive Table
  | sps
  | evt
deriving DecidableEq, Repr

/-- Where the flows are registered. -/
def Kind.table : Kind → Table
  | .sps => .sps
  | .event | .tcp => .evt

structure FlowInfo where
  ipType : Nat
  serviceId : Nat
  spsPort : Nat
  eventPort : Nat
deriving DecidableEq, Repr

/-- A flow of the server. The server does not record which registration it is from. -/
structure Registered where
  info : FlowInfo
  flowId : Nat
  registration : Nat
deriving DecidableEq, Repr

structure Cv2xRadioServer where
  spsFlows : Assoc.Map Nat Registered
  evtFlows : Assoc.Map Nat Registered
  /-- The number of flows registered so far. -/
  registrations : Nat
deriving DecidableEq

def simulationSpsMaxNumFlows : Nat := 2

def simulationNonSpsMaxNumFlows : Nat := 255

def simulationEvtFlowBase : Nat := 100

def simulationMinimumPortNumber : Nat := 1024

/-- The map that a request is about. -/
def FlowInfo.table? (request : FlowInfo) : Option Table :=
  if request.spsPort > 0 then some .sps else if request.eventPort > 0 then some .evt else none

/-- The number for a new flow. -/
def saveFlowInfo (flows : Assoc.Map Nat Registered) (base max : Nat) : Option Nat :=
  if flows.values.length < max then
    (List.range' base max).find? fun id => (flows.get? id).isNone
  else none

namespace Cv2xRadioServer

def table (s : Cv2xRadioServer) : Table → Assoc.Map Nat Registered
  | .sps => s.spsFlows
  | .evt => s.evtFlows

def setTable (s : Cv2xRadioServer) (tb : Table) (flows : Assoc.Map Nat Registered) :
    Cv2xRadioServer :=
  match tb with
  | .sps => { s with spsFlows := flows }
  | .evt => { s with evtFlows := flows }

/-- The number that a new flow of this map gets. -/
def nextId (s : Cv2xRadioServer) : Table → Option Nat
  | .sps => saveFlowInfo s.spsFlows 0 simulationSpsMaxNumFlows
  | .evt => saveFlowInfo s.evtFlows simulationEvtFlowBase simulationNonSpsMaxNumFlows

/-- `none` is the status `FAILED`. -/
def registerFlow (s : Cv2xRadioServer) (request : FlowInfo) : Cv2xRadioServer × Option Nat :=
  match request.table? with
  | none => (s, none)
  | some tb =>
    match s.nextId tb with
    | none => (s, none)
    | some id =>
      ({ s.setTable tb ((s.table tb).set id ⟨request, id, s.registrations⟩) with
        registrations := s.registrations + 1 }, some id)

/-- Whether the flow was found is returned, too. -/
def deregisterFlow (s : Cv2xRadioServer) (request : FlowInfo) (flowId : Nat) :
    Cv2xRadioServer × Bool :=
  match request.table? with
  | none => (s, false)
  | some tb =>
    match (s.table tb).get? flowId with
    | none => (s, false)
    | some _ => (s.setTable tb ((s.table tb).erase flowId), true)

end Cv2xRadioServer

/-- A flow or a TCP socket of the client. -/
structure Flow where
  kind : Kind
  flowId : Nat
  ipType : Nat
  serviceId : Nat
  port : Nat
  registration : Nat
deriving DecidableEq, Repr

/-- A call that creates a flow or a TCP socket. -/
structure Create where
  kind : Kind
  ipType : Nat
  serviceId : Nat
  port : Nat
  /-- The port of the event flow that goes with an SPS flow. -/
  eventPort : Option Nat
deriving DecidableEq, Repr

/-- The ports of a request to the server. -/
def flowInfo (kind : Kind) (ipType serviceId port eventPort : Nat) : FlowInfo :=
  match kind with
  | .sps => ⟨ipType, serviceId, port, eventPort⟩
  | .event | .tcp => ⟨ipType, serviceId, 0, port⟩

def Flow.info (f : Flow) : FlowInfo := flowInfo f.kind f.ipType f.serviceId f.port 0

namespace Create

def info (c : Create) : FlowInfo :=
  flowInfo c.kind c.ipType c.serviceId c.port (c.eventPort.getD 0)

def flow (c : Create) (flowId registration : Nat) : Flow :=
  ⟨c.kind, flowId, c.ipType, c.serviceId, c.port, registration⟩

/-- `initTxEventFlow` within `initTxSpsFlow` -/
def event? (c : Create) : Option Create :=
  c.eventPort.map fun port => ⟨.event, c.ipType, c.serviceId, port, none⟩

end Create

/-- A task before its next step. -/
inductive Task
  /-- `createCv2xTcpSocketSync` looks for a socket of the same service and subscribes. -/
  | subscribe (c : Create)
  | register (c : Create)
  /-- The flow is registered under this number. -/
  | add (c : Create) (flowId registration : Nat)
  /-- A TCP socket could not be added. -/
  | undo (c : Create) (flowId registration : Nat)
  | deregister (f : Flow)
  | closeSock (f : Flow)
  | remove (f : Flow)
deriving DecidableEq, Repr

structure State where
  server : Cv2xRadioServer
  spsFlows : Assoc.Map Nat Flow
  eventFlows : Assoc.Map Nat Flow
  tcpSockets : Assoc.Map Nat Flow
  /-- The flows and sockets that were handed out. -/
  created : List Flow
  /-- The registrations of the flows whose socket is closed. -/
  closedSocks : List Nat
  tasks : List Task
deriving DecidableEq

def initial : State where
  server := ⟨.empty, .empty, 0⟩
  spsFlows := .empty
  eventFlows := .empty
  tcpSockets := .empty
  created := []
  closedSocks := []
  tasks := []

inductive Event
  | createTxSpsFlow (ipType serviceId spsSrcPort : Nat) (eventSrcPort : Option Nat)
  | createTxEventFlow (ipType serviceId eventSrcPort : Nat)
  | createCv2xTcpSocket (serviceId localPort : Nat)
  | closeTxFlow (registration : Nat)
  | closeCv2xTcpSocket (registration : Nat)
  /-- The next step of a task; `subscribed` is what `addRxSubscription` answers. -/
  | task (index : Nat) (subscribed : Bool)
deriving DecidableEq, Repr

namespace State

def flows (s : State) : Kind → Assoc.Map Nat Flow
  | .sps => s.spsFlows
  | .event => s.eventFlows
  | .tcp => s.tcpSockets

def setFlows (s : State) (kind : Kind) (flows : Assoc.Map Nat Flow) : State :=
  match kind with
  | .sps => { s with spsFlows := flows }
  | .event => { s with eventFlows := flows }
  | .tcp => { s with tcpSockets := flows }

def push (s : State) (task : Task) : State := { s with tasks := s.tasks ++ [task] }

/-- The flow or socket of a registration. -/
def flow? (s : State) (registration : Nat) : Option Flow :=
  s.created.find? (·.registration = registration)

def isTcpSocketPresent (s : State) (serviceId : Nat) : Bool :=
  s.tcpSockets.values.any (·.serviceId = serviceId)

def createTxSpsFlow (s : State) (ipType serviceId spsSrcPort : Nat) (eventSrcPort : Option Nat) :
    State :=
  if spsSrcPort < simulationMinimumPortNumber ∨
      ∃ port ∈ eventSrcPort, port < simulationMinimumPortNumber then s
  else s.push (.register ⟨.sps, ipType, serviceId, spsSrcPort, eventSrcPort⟩)

def createTxEventFlow (s : State) (ipType serviceId eventSrcPort : Nat) : State :=
  s.push (.register ⟨.event, ipType, serviceId, eventSrcPort, none⟩)

/-- The traffic of TCP sockets is `TRAFFIC_IP`. -/
def createCv2xTcpSocket (s : State) (serviceId localPort : Nat) : State :=
  s.push (.subscribe ⟨.tcp, 0, serviceId, localPort, none⟩)

def closeTxFlow (s : State) (registration : Nat) : State :=
  match s.flow? registration with
  | none => s
  | some f =>
    if f.kind = .tcp ∨ registration ∈ s.closedSocks then s else s.push (.deregister f)

/-- The socket of a TCP socket is never marked as closed. -/
def closeCv2xTcpSocket (s : State) (registration : Nat) : State :=
  match s.flow? registration with
  | none => s
  | some f => if f.kind = .tcp then s.push (.deregister f) else s

/-- `FLOW_RPC_CALL` keeps the number of the flow in a byte. -/
def toByte (flowId : Nat) : Nat := flowId % 2 ^ 8

/-- `addFlow` and `addTcpSocket` -/
def add (s : State) (c : Create) (flowId registration : Nat) : State :=
  let f := c.flow flowId registration
  match (s.flows c.kind).get? flowId, c.kind with
  | some _, .tcp => s.push (.undo c flowId registration)
  | some _, _ => { s with created := s.created ++ [f] }
  | none, _ =>
    { s.setFlows c.kind ((s.flows c.kind).set flowId f) with created := s.created ++ [f] }

/-- `removeFlow` and `removeTcpSocket` -/
def remove (s : State) (f : Flow) : State :=
  s.setFlows f.kind ((s.flows f.kind).erase f.flowId)

/-- A step of a task that is not in the list any more. -/
def runTask (s : State) (subscribed : Bool) : Task → State
  | .subscribe c =>
    if s.isTcpSocketPresent c.serviceId then s else if subscribed then s.push (.register c) else s
  | .register c =>
    match s.server.registerFlow c.info with
    | (server, none) => { s with server := server }
    | (server, some id) =>
      { s with server := server }.push (.add c (toByte id) s.server.registrations)
  | .add c flowId registration =>
    let s := s.add c flowId registration
    match c.event? with
    | none => s
    | some event => s.push (.register event)
  | .undo c flowId _ => { s with server := (s.server.deregisterFlow c.info flowId).1 }
  | .deregister f =>
    let s := { s with server := (s.server.deregisterFlow f.info f.flowId).1 }
    match f.kind with
    | .sps => s.push (.closeSock f)
    | .event | .tcp => s.push (.remove f)
  | .closeSock f =>
    let s := { s with closedSocks := s.closedSocks ++ [f.registration] }
    match f.kind with
    | .sps => s.push (.remove f)
    | .event | .tcp => s
  | .remove f =>
    match f.kind with
    | .event => (s.remove f).push (.closeSock f)
    | .sps | .tcp => s.remove f

def step (s : State) : Event → State
  | .createTxSpsFlow ipType serviceId spsSrcPort eventSrcPort =>
    s.createTxSpsFlow ipType serviceId spsSrcPort eventSrcPort
  | .createTxEventFlow ipType serviceId eventSrcPort =>
    s.createTxEventFlow ipType serviceId eventSrcPort
  | .createCv2xTcpSocket serviceId localPort => s.createCv2xTcpSocket serviceId localPort
  | .closeTxFlow registration => s.closeTxFlow registration
  | .closeCv2xTcpSocket registration => s.closeCv2xTcpSocket registration
  | .task index subscribed =>
    match s.tasks[index]? with
    | none => s
    | some t => { s with tasks := s.tasks.eraseIdx index }.runTask subscribed t

end State

end Cv2x

end SatComm
