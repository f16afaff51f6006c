import SatComm.Cv2x.Subscriptions

/-!
# Creation calls of the radio client

A creation call registers with the server and opens a socket. When a later step fails, it undoes the
earlier ones, and passes what it created and an error to the callback.

Requests may be lost, and the server answers a request that gets through with the status and the
error that it is configured to answer; it serves the request if this status is `SUCCESS`. Null
callbacks and a client that is not initialized make a call fail at once, and are left out.
-/

namespace SatComm

namespace Cv2x

namespace Creation

inductive Status
  | SUCCESS | FAILED | ALREADY
  /-- Another one that the server is configured to answer. -/
  | other (code : Nat)
deriving DecidableEq, Repr

inductive ErrorCode
  | SUCCESS | GENERIC_FAILURE | NO_RESOURCES | MODEM_ERR | INTERNAL_ERR | NOT_PROVISIONED
  | DEVICE_IN_USE
  /-- Another one that the server is configured to answer. -/
  | other (code : Nat)
deriving DecidableEq, Repr

/-! ## Requests -/

/-- What becomes of a request. -/
inductive Rpc
  | lost
  /-- The status and the error that the server is configured to answer. -/
  | answered (status : Status) (error : ErrorCode)
deriving DecidableEq, Repr

/-- The number of the flow is used after `SUCCESS` only. -/
structure Reply where
  status : Status
  error : ErrorCode
  flowId : Nat
deriving DecidableEq, Repr

/-- `FLOW_RPC_CALL`. The server answers `MODEM_ERR` when it cannot serve a request. -/
def flowRpcCall (func : RadioServer → RadioServer × Except Cv2x.ErrorCode Nat) (s : RadioServer) :
    Rpc → RadioServer × Reply
  | .lost => (s, ⟨.FAILED, .NOT_PROVISIONED, 0⟩)
  | .answered status error =>
    if status ≠ .SUCCESS then (s, ⟨status, error, 0⟩)
    else
      match func s with
      | (s, .ok id) => (s, ⟨.SUCCESS, error, id⟩)
      | (s, .error _) => (s, ⟨.FAILED, .MODEM_ERR, 0⟩)

/-- `RXSUBSCRIPTION_RPC_CALL`, with the status only. -/
def rxSubscriptionRpcCall (func : RadioServer → RadioServer × Except Cv2x.ErrorCode Unit)
    (s : RadioServer) : Rpc → RadioServer × Status
  | .lost => (s, .FAILED)
  | .answered status _ =>
    if status ≠ .SUCCESS then (s, status)
    else
      match func s with
      | (s, .ok ()) => (s, .SUCCESS)
      | (s, .error _) => (s, .FAILED)

/-- The error that `RXSUBSCRIPTION_RPC_CALL` sets. -/
def rxSubscriptionError (status : Status) : ErrorCode :=
  if status ≠ .SUCCESS then .MODEM_ERR else .SUCCESS

def registerFlow (s : RadioServer) (request : FlowInfo) (rpc : Rpc) : RadioServer × Reply :=
  flowRpcCall (·.registerFlow request) s rpc

def deregisterFlow (s : RadioServer) (request : FlowInfo) (flowId : Nat) (rpc : Rpc) :
    RadioServer × Reply :=
  flowRpcCall (fun s => ((s.deregisterFlow request flowId).1,
    (s.deregisterFlow request flowId).2.map fun _ => 0)) s rpc

def addRxSubscription (s : RadioServer) (request : RxSubscription) (rpc : Rpc) :
    RadioServer × Status :=
  rxSubscriptionRpcCall (·.addRxSubscription request) s rpc

def delRxSubscription (s : RadioServer) (request : RxSubscription) (rpc : Rpc) :
    RadioServer × Status :=
  rxSubscriptionRpcCall (·.delRxSubscription request) s rpc

/-! ## The client -/

structure Cv2xRxSubscription where
  id : Nat
  ipType : Nat
  port : Nat
  idList : Option (List Nat)
deriving DecidableEq, Repr

structure Client where
  rxSubscriptions : Assoc.Map Nat Cv2xRxSubscription
  /-- `Cv2xRxSubscription::Id` -/
  nextId : Nat
  spsFlows : Assoc.Map Nat Flow
  eventFlows : Assoc.Map Nat Flow
  tcpSockets : Assoc.Map Nat Flow
deriving DecidableEq

/-- The client and the server. -/
structure Radio where
  server : RadioServer
  client : Client
deriving DecidableEq

/-- What comes of the requests and of the sockets of a call. -/
structure Outcomes where
  /-- There is a stub for the server. -/
  serviceStub : Bool
  addRxSubscription : Rpc
  delRxSubscription : Rpc
  registerSps : Rpc
  deregisterSps : Rpc
  /-- Of an event flow, also of a TCP socket. -/
  registerEvent : Rpc
  deregisterEvent : Rpc
  initRxSock : Bool
  initTxSpsSock : Bool
  initTxEventSock : Bool
  initTcpSock : Bool
deriving DecidableEq, Repr

/-- What is passed to the callback. -/
structure Passed (α : Type) where
  object : Option α
  error : ErrorCode
  /-- The status of each request that undoes a part of the creation. -/
  undone : List Status
deriving DecidableEq, Repr

/-- `addFlow`, `addSubscription` and `addTcpSocket` -/
def add {α : Type} (m : Assoc.Map Nat α) (id : Nat) (a : α) : Assoc.Map Nat α × Status :=
  match m.get? id with
  | some _ => (m, .ALREADY)
  | none => (m.set id a, .SUCCESS)

def Client.isTcpSocketPresent (c : Client) (serviceId : Nat) : Bool :=
  c.tcpSockets.values.any (·.serviceId = serviceId)

variable (o : Outcomes)

/-! ## The calls -/

def createRxSubscriptionSync (s : Radio) (ipType port : Nat) (idList : Option (List Nat)) :
    Radio × Passed Cv2xRxSubscription :=
  if o.serviceStub = false then (s, ⟨none, .NO_RESOURCES, []⟩)
  else
    let request : RxSubscription := ⟨port, ipType, idList.getD []⟩
    let added := addRxSubscription s.server request o.addRxSubscription
    if added.2 ≠ .SUCCESS then ({ s with server := added.1 }, ⟨none, .MODEM_ERR, []⟩)
    else if o.initRxSock then
      let rxSub : Cv2xRxSubscription := ⟨s.client.nextId, ipType, port, idList⟩
      let client := { s.client with
        nextId := s.client.nextId + 1
        rxSubscriptions := (add s.client.rxSubscriptions rxSub.id rxSub).1 }
      (⟨added.1, client⟩, ⟨some rxSub, rxSubscriptionError added.2, []⟩)
    else
      let deleted := delRxSubscription added.1 request o.delRxSubscription
      let error := if deleted.2 ≠ .SUCCESS then .INTERNAL_ERR else .GENERIC_FAILURE
      ({ s with server := deleted.1 }, ⟨none, error, [deleted.2]⟩)

def initTxEventFlow (s : Radio) (ipType serviceId eventSrcPort : Nat) : Radio × Passed Flow :=
  let request := flowInfo .event ipType serviceId eventSrcPort 0
  let registered := registerFlow s.server request o.registerEvent
  if registered.2.status ≠ .SUCCESS then
    ({ s with server := registered.1 }, ⟨none, registered.2.error, []⟩)
  else
    let flowId := State.toByte registered.2.flowId
    if o.initTxEventSock then
      let flow : Flow :=
        ⟨.event, flowId, ipType, serviceId, eventSrcPort, s.server.flows.registrations⟩
      let client := { s.client with eventFlows := (add s.client.eventFlows flowId flow).1 }
      (⟨registered.1, client⟩, ⟨some flow, registered.2.error, []⟩)
    else
      let deregistered := deregisterFlow registered.1 request flowId o.deregisterEvent
      let error :=
        if deregistered.2.status ≠ .SUCCESS then deregistered.2.error else .GENERIC_FAILURE
      ({ s with server := deregistered.1 }, ⟨none, error, [deregistered.2.status]⟩)

/-- The variables of `createTxSpsFlowSync`, and what is undone. -/
structure SpsVariables where
  txSpsFlow : Option Flow
  txEventFlow : Option Flow
  spsStatus : Status
  eventStatus : Status
  ec : ErrorCode
  spsUndone : List Status
  eventUndone : List Status
deriving DecidableEq, Repr

/-- `initTxSpsFlow` up to the event flow, which is created only if there is a `true`. -/
def initTxSpsFlow₁ (s : Radio) (ipType serviceId spsSrcPort : Nat) (eventSrcPort : Option Nat) :
    Radio × SpsVariables × Bool :=
  let request := flowInfo .sps ipType serviceId spsSrcPort (eventSrcPort.getD 0)
  let eventStatus := if eventSrcPort.isSome then Status.FAILED else .SUCCESS
  let registered := registerFlow s.server request o.registerSps
  if registered.2.status ≠ .SUCCESS then
    ({ s with server := registered.1 },
      ⟨none, none, .FAILED, eventStatus, registered.2.error, [], []⟩, false)
  else
    let spsId := State.toByte registered.2.flowId
    if o.initTxSpsSock then
      let flow : Flow := ⟨.sps, spsId, ipType, serviceId, spsSrcPort, s.server.flows.registrations⟩
      let client := { s.client with spsFlows := (add s.client.spsFlows spsId flow).1 }
      (⟨registered.1, client⟩,
        ⟨some flow, none, .SUCCESS, .SUCCESS, registered.2.error, [], []⟩, true)
    else
      let deregistered := deregisterFlow registered.1 request spsId o.deregisterSps
      let ec :=
        if .SUCCESS ≠ deregistered.2.error then deregistered.2.error else .GENERIC_FAILURE
      ({ s with server := deregistered.1 },
        ⟨none, none, .FAILED, eventStatus, ec, [deregistered.2.status], []⟩, true)

/-- The callback that `initTxSpsFlow` gives to `initTxEventFlow`. -/
def SpsVariables.onEventFlow (v : SpsVariables) (event : Passed Flow) : SpsVariables :=
  if .SUCCESS = event.error then
    { v with
      txEventFlow := event.object
      eventStatus := .SUCCESS
      ec := .SUCCESS
      eventUndone := event.undone }
  else
    { v with
      eventStatus := .FAILED
      ec := if .SUCCESS ≠ v.ec then event.error else v.ec
      eventUndone := event.undone }

def initTxSpsFlow (s : Radio) (ipType serviceId spsSrcPort : Nat) (eventSrcPort : Option Nat) :
    Radio × SpsVariables :=
  match initTxSpsFlow₁ o s ipType serviceId spsSrcPort eventSrcPort, eventSrcPort with
  | (s, v, true), some port =>
    let event := initTxEventFlow o s ipType serviceId port
    (event.1, v.onEventFlow event.2)
  | (s, v, _), _ => (s, v)

/-- The SPS flow and the event flow. -/
def createTxSpsFlowSync (s : Radio) (ipType serviceId spsSrcPort : Nat)
    (eventSrcPort : Option Nat) : Radio × Passed Flow × Passed Flow :=
  let r := initTxSpsFlow o s ipType serviceId spsSrcPort eventSrcPort
  let spsEc := if .SUCCESS = r.2.spsStatus then .SUCCESS else r.2.ec
  let eventEc := if .SUCCESS = r.2.eventStatus then .SUCCESS else r.2.ec
  (r.1, ⟨r.2.txSpsFlow, spsEc, r.2.spsUndone⟩, ⟨r.2.txEventFlow, eventEc, r.2.eventUndone⟩)

/-- `TRAFFIC_IP` -/
def trafficIp : Nat := 0

def createCv2xTcpSocketSync (s : Radio) (serviceId localPort : Nat) : Radio × Passed Flow :=
  if o.initTcpSock = false then (s, ⟨none, .GENERIC_FAILURE, []⟩)
  else if s.client.isTcpSocketPresent serviceId then (s, ⟨none, .GENERIC_FAILURE, []⟩)
  else
    let rx : RxSubscription := ⟨localPort, trafficIp, [serviceId]⟩
    let added := addRxSubscription s.server rx o.addRxSubscription
    if added.2 ≠ .SUCCESS then
      ({ s with server := added.1 }, ⟨none, rxSubscriptionError added.2, []⟩)
    else
      let request := flowInfo .tcp trafficIp serviceId localPort 0
      let registered := registerFlow added.1 request o.registerEvent
      if registered.2.status ≠ .SUCCESS then
        let deleted := delRxSubscription registered.1 rx o.delRxSubscription
        ({ s with server := deleted.1 }, ⟨none, rxSubscriptionError deleted.2, [deleted.2]⟩)
      else
        let flowId := State.toByte registered.2.flowId
        let socket : Flow :=
          ⟨.tcp, flowId, trafficIp, serviceId, localPort, added.1.flows.registrations⟩
        match add s.client.tcpSockets flowId socket with
        | (tcpSockets, .SUCCESS) =>
          (⟨registered.1, { s.client with tcpSockets := tcpSockets }⟩,
            ⟨some socket, registered.2.error, []⟩)
        | _ =>
          let deleted := delRxSubscription registered.1 rx o.delRxSubscription
          let deregistered := deregisterFlow deleted.1 request flowId o.deregisterEvent
          ({ s with server := deregistered.1 },
            ⟨none, deregistered.2.error, [deleted.2, deregistered.2.status]⟩)

/-! ## The calls of a user -/

inductive Call
  | createRxSubscription (ipType port : Nat) (idList : Option (List Nat))
  | createTxEventFlow (ipType serviceId eventSrcPort : Nat)
  | createTxSpsFlow (ipType serviceId spsSrcPort : Nat) (eventSrcPort : Option Nat)
  | createCv2xTcpSocket (serviceId localPort : Nat)
deriving DecidableEq, Repr

/-- The ports are those that the call takes. -/
def Call.Valid : Call → Prop
  | .createRxSubscription _ port _ => simulationMinimumPortNumber ≤ port
  | .createTxSpsFlow _ _ spsSrcPort eventSrcPort => simulationMinimumPortNumber ≤ spsSrcPort ∧
    ∀ port ∈ eventSrcPort, simulationMinimumPortNumber ≤ port
  | .createTxEventFlow .. | .createCv2xTcpSocket .. => True

end Creation

end Cv2x

end SatComm
