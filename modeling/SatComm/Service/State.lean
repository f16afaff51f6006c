import SatComm.Runs.Basic

/-!
# `C_SatCommService`: the worker, the callbacks and the life cycle

The service is four parties over one state: the worker thread (`workerLoop_`), the thread that
calls `init` and `shutdown`, the producers that call `sendAudioFrame`, and the NTN manager with
its listener callbacks. A step is one access to a shared variable, one locked section on `q_`
or one call into the manager, and the parties take steps in any order. `mtx_` only guards
`q_`, whose front nobody but the worker touches, so a locked section is one step. A condition
variable is a loop that may look at its predicate at any time.

The manager answers every call as it likes. It acknowledges each successful `sendData` once;
an acknowledgement that comes when the listener is gone, or for a chunk of an earlier
registration, is not seen.
-/

namespace SatComm.Service

/-! ## Data -/

/-- `telux::common::ErrorCode`, with the codes the service itself returns. -/
inductive ErrorCode
  | success
  | notReady
  | invalidArgument
  | other (code : Nat)
deriving DecidableEq, Repr

/-- `telux::satcom::NtnState`. -/
inductive NtnState
  | disabled
  | outOfService
  | inService
deriving DecidableEq, Repr

/-- `telux::common::ServiceStatus`. -/
inductive ServiceStatus
  | serviceUnavailable
  | serviceAvailable
  | serviceFailed
deriving DecidableEq, Repr

/-- `C_SatCommService::Pdu`. -/
structure Pdu where
  bytes : List UInt8
  emergency : Bool
deriving DecidableEq, Repr

/-- The next load of a condition over `running_`, `q_`, `serviceOk_` and `inFlight_`, which are
read in this order. -/
inductive Load
  | running
  | queue
  | service
  | inFlight
deriving DecidableEq, Repr

/-- Where the worker thread is in `workerLoop_`. `m` is the size limit of the frame `p` and
`offset` the number of its bytes that are done with. -/
inductive Worker
  /-- There is no thread to join. -/
  | none
  /-- The thread exists and has not stored `running_` yet. -/
  | created
  /-- In the predicate of the outer wait. -/
  | wait (next : Load)
  /-- In the tests behind the outer wait. -/
  | check (next : Load)
  /-- A frame is taken; `mtu_` is loaded next. -/
  | popped (p : Pdu)
  /-- `mtu_` was `0`; the capabilities are asked for next. -/
  | probe (p : Pdu)
  /-- The limit is known and stored to `mtu_` next. -/
  | store (p : Pdu) (m : Nat)
  /-- At the head of the chunk loop. -/
  | chunk (p : Pdu) (m offset : Nat)
  /-- `inFlight_` is raised; `sendData` is called next. -/
  | send (p : Pdu) (m offset : Nat)
  /-- `sendData` failed; `inFlight_` is cleared next. -/
  | failed (p : Pdu) (m offset : Nat)
  /-- The remainder is queued next. -/
  | requeue (p : Pdu) (m offset : Nat)
  /-- In the predicate of the inner wait, before the load of `running_`. -/
  | await (p : Pdu) (m offset : Nat)
  /-- In the predicate of the inner wait, before the load of `inFlight_`. -/
  | awaitAck (p : Pdu) (m offset : Nat)
  /-- Behind the inner wait, before the test of `running_`. -/
  | acked (p : Pdu) (m offset : Nat)
  /-- The thread function has returned. -/
  | exited
deriving DecidableEq, Repr

/-- Where the thread that calls `init` and `shutdown` is. -/
inductive Control
  | idle
  /-- In `init`, by what comes next. -/
  | register
  | prime
  | storeMtu (maxDataSize : Nat)
  | observe
  | storeGate (ok : Bool)
  | raise
  | start
  /-- In `shutdown`, by what comes next. -/
  | join
  | drain
  | deregister
  | release
deriving DecidableEq, Repr

/-- One `sendData` call, with what the gates said when it was made. -/
structure SendCall where
  bytes : List UInt8
  emergency : Bool
  result : ErrorCode
  mtu : Nat
  reported : Option Nat
  serviceOk : Bool
  stopped : Bool
deriving DecidableEq, Repr

/-- The service and its manager. The fields from `session` on are bookkeeping that no step of
the code reads. -/
structure State where
  /-- `cfg_.data_plane.max_tx_pdu_override`. -/
  maxTxPduOverride : Option Nat
  /-- `ntn_` is not null. -/
  ntn : Bool
  mtu : Nat
  q : List Pdu
  running : Bool
  inFlight : Bool
  serviceOk : Bool
  worker : Worker
  control : Control
  /-- The listener is registered with the manager. -/
  registered : Bool
  /-- The number of registrations so far. -/
  session : Nat
  /-- The sessions of the chunks that were sent and are not acknowledged. -/
  unacked : List Nat
  /-- The last positive `maxDataSize` the manager reported. -/
  reported : Option Nat
  /-- `stopWorker_` has cleared `running_`, and `init` was not called since. -/
  stopped : Bool
  /-- The frames `sendAudioFrame` accepted since the queue was last drained. -/
  accepted : List Pdu
  /-- The `sendData` calls since the queue was last drained. -/
  calls : List SendCall
deriving DecidableEq, Repr

/-- A service as constructed. -/
def State.init (maxTxPduOverride : Option Nat) : State where
  maxTxPduOverride := maxTxPduOverride
  ntn := false
  mtu := 0
  q := []
  running := false
  inFlight := false
  serviceOk := false
  worker := .none
  control := .idle
  registered := false
  session := 0
  unacked := []
  reported := none
  stopped := false
  accepted := []
  calls := []

/-! ## The worker -/

/-- `sendSz`: the size of the chunk at `offset`. -/
def sendSz (p : Pdu) (m offset : Nat) : Nat :=
  let remain := p.bytes.length - offset
  if remain < m then remain else m

/-- The size limit after a capability probe: the reported size, `256` without one. -/
def probedMtu (ec : ErrorCode) (maxDataSize : Nat) : Nat :=
  let m := if ec = .success then maxDataSize else 0
  if m = 0 then 256 else m

/-- A `maxDataSize` the manager reported, unless it is `0`. -/
def reportOf (s : State) (ec : ErrorCode) (maxDataSize : Nat) : Option Nat :=
  if ec = .success ∧ 0 < maxDataSize then some maxDataSize else s.reported

/-- A step of `workerLoop_` that does not call the manager. -/
def workerStep (s : State) : Option State :=
  match s.worker with
  | .created => some { s with running := true, worker := .wait .running }
  -- the predicate of the outer wait
  | .wait .running =>
    some { s with worker := if s.running then .wait .queue else .check .running }
  | .wait .queue => some { s with worker := if s.q.isEmpty then .wait .running else .wait .service }
  | .wait .service =>
    some { s with worker := if s.serviceOk then .wait .inFlight else .wait .running }
  | .wait .inFlight =>
    some { s with worker := if s.inFlight then .wait .running else .check .running }
  -- the tests behind it
  | .check .running => some { s with worker := if s.running then .check .queue else .exited }
  | .check .queue =>
    some { s with worker := if s.q.isEmpty then .wait .running else .check .service }
  | .check .service =>
    some { s with worker := if s.serviceOk then .check .inFlight else .wait .running }
  | .check .inFlight =>
    if s.inFlight then some { s with worker := .wait .running }
    else
      match s.q with
      | [] => none
      | p :: q => some { s with q := q, worker := .popped p }
  | .popped p =>
    some { s with worker := if s.mtu = 0 then .probe p else .chunk p s.mtu 0 }
  | .store p m => some { s with mtu := m, worker := .chunk p m 0 }
  | .chunk p m offset =>
    if offset < p.bytes.length then some { s with inFlight := true, worker := .send p m offset }
    else some { s with worker := .wait .running }
  | .failed p m offset => some { s with inFlight := false, worker := .requeue p m offset }
  | .requeue p m offset =>
    let next := offset + sendSz p m offset
    if next < p.bytes.length then
      some { s with
        q := s.q ++ [{ bytes := p.bytes.drop next, emergency := p.emergency }]
        worker := .wait .running }
    else some { s with worker := .wait .running }
  | .await p m offset =>
    some { s with worker := if s.running then .awaitAck p m offset else .acked p m offset }
  | .awaitAck p m offset =>
    some { s with worker := if s.inFlight then .await p m offset else .acked p m offset }
  | .acked p m offset =>
    some { s with
      worker := if s.running then .chunk p m (offset + sendSz p m offset) else .exited }
  | .none | .probe _ | .send .. | .exited => none

/-- `getNtnCapabilities` in the worker. -/
def probeStep (s : State) (ec : ErrorCode) (maxDataSize : Nat) : Option State :=
  match s.worker with
  | .probe p =>
    some { s with
      reported := reportOf s ec maxDataSize
      worker := .store p (probedMtu ec maxDataSize) }
  | _ => none

/-- `sendChunk_`: the call to `sendData`, and the result the manager gives. -/
def sendStep (s : State) (ec : ErrorCode) : Option State :=
  match s.worker with
  | .send p m offset =>
    let call : SendCall :=
      { bytes := (p.bytes.drop offset).take (sendSz p m offset), emergency := p.emergency,
        result := ec, mtu := s.mtu, reported := s.reported, serviceOk := s.serviceOk,
        stopped := s.stopped }
    if ec = .success then
      some { s with
        unacked := s.session :: s.unacked, calls := s.calls ++ [call], worker := .await p m offset }
    else some { s with calls := s.calls ++ [call], worker := .failed p m offset }
  | _ => none

/-! ## The public operations -/

/-- `sendAudioFrame`. -/
def sendAudioFrame (s : State) (bytes : List UInt8) (emergency : Bool) : ErrorCode × State :=
  if !s.ntn then (.notReady, s)
  else if bytes.isEmpty then (.invalidArgument, s)
  else
    let p : Pdu := { bytes := bytes, emergency := emergency }
    (.success, { s with q := s.q ++ [p], accepted := s.accepted ++ [p] })

/-- `init`, up to the answer of `getNtnManager`. With a manager already there it returns at
once, and after a status other than `SERVICE_AVAILABLE` it returns with the manager kept. -/
def initStep (s : State) (manager : Bool) (ready : ServiceStatus) : Option State :=
  if s.control = .idle ∧ s.ntn = false then
    some { s with
      ntn := manager
      stopped := false
      control := if manager ∧ ready = .serviceAvailable then .register else .idle }
  else none

/-- The rest of `init` and all of `shutdown`, one step after the other. The parameters answer
the calls into the manager: `registerListener`, `getNtnCapabilities`, then `getNtnState` and
`getServiceStatus`. -/
def controlStep (s : State) (registers : Bool) (ec : ErrorCode) (maxDataSize : Nat)
    (ns : NtnState) (ss : ServiceStatus) : Option State :=
  match s.control with
  | .idle => none
  | .register =>
    if registers then
      some { s with registered := true, session := s.session + 1, control := .prime }
    else some { s with control := .idle }
  | .prime =>
    some { s with
      reported := reportOf s ec maxDataSize
      control := if ec = .success ∧ 0 < maxDataSize then .storeMtu maxDataSize else .observe }
  | .storeMtu n => some { s with mtu := n, control := .observe }
  | .observe =>
    some { s with control := .storeGate (ns = .inService && ss = .serviceAvailable) }
  | .storeGate ok => some { s with serviceOk := ok, control := .raise }
  | .raise => some { s with running := true, control := .start }
  | .start =>
    some { s with
      worker := if s.worker = .none then .created else s.worker
      control := .idle }
  | .join =>
    if s.worker = .none ∨ s.worker = .exited then
      some { s with worker := .none, control := .drain }
    else none
  | .drain => some { s with q := [], accepted := [], calls := [], control := .deregister }
  | .deregister =>
    if s.ntn then some { s with registered := false, control := .release }
    else some { s with control := .idle }
  | .release => some { s with ntn := false, control := .idle }

/-- `shutdown`, up to the store that clears `running_`. -/
def shutdownStep (s : State) : Option State :=
  if s.control = .idle then some { s with running := false, stopped := true, control := .join }
  else none

/-! ## The listener -/

/-- `getServiceStatus`, which does not need a manager. -/
def getServiceStatus (s : State) (ss : ServiceStatus) : ServiceStatus :=
  if s.ntn then ss else .serviceUnavailable

/-- `getNtnState`, which does not need a manager. -/
def getNtnState (s : State) (ns : NtnState) : NtnState := if s.ntn then ns else .disabled

/-- `onNtnStateChange`; `ss` is the status the manager has then. -/
def onNtnStateChange (s : State) (state : NtnState) (ss : ServiceStatus) : State :=
  { s with serviceOk := state = .inService && getServiceStatus s ss = .serviceAvailable }

/-- `onServiceStatusChange`; `ns` is the state the manager has then. -/
def onServiceStatusChange (s : State) (status : ServiceStatus) (ns : NtnState) : State :=
  { s with serviceOk := getNtnState s ns = .inService && status = .serviceAvailable }

/-- `onCapabilitiesChange`. -/
def onCapabilitiesChange (s : State) (maxDataSize : Nat) : State :=
  if 0 < maxDataSize then { s with mtu := maxDataSize, reported := some maxDataSize } else s

/-- The manager acknowledges a chunk of session `n`; `onDataAck` runs when the listener of that
session is still registered. -/
def ackStep (s : State) (n : Nat) : Option State :=
  if n ∈ s.unacked then
    let s' := { s with unacked := s.unacked.erase n }
    if s.registered ∧ n = s.session then some { s' with inFlight := false } else some s'
  else none

/-! ## The system -/

/-- What can happen next. -/
inductive Event
  | work
  | probe (ec : ErrorCode) (maxDataSize : Nat)
  | sendData (ec : ErrorCode)
  | sendAudioFrame (bytes : List UInt8) (emergency : Bool)
  | init (manager : Bool) (ready : ServiceStatus)
  | control (registers : Bool) (ec : ErrorCode) (maxDataSize : Nat) (ns : NtnState)
    (ss : ServiceStatus)
  | shutdown
  | ack (session : Nat)
  | ntnState (state : NtnState) (ss : ServiceStatus)
  | serviceStatus (status : ServiceStatus) (ns : NtnState)
  | capabilities (maxDataSize : Nat)
deriving DecidableEq, Repr

/-- One step of one party. Listener callbacks need a registered listener. -/
def step (s : State) : Event → Option State
  | .work => workerStep s
  | .probe ec n => probeStep s ec n
  | .sendData ec => sendStep s ec
  | .sendAudioFrame bytes emergency => some (sendAudioFrame s bytes emergency).2
  | .init manager ready => initStep s manager ready
  | .control registers ec n ns ss => controlStep s registers ec n ns ss
  | .shutdown => shutdownStep s
  | .ack n => ackStep s n
  | .ntnState state ss => if s.registered then some (onNtnStateChange s state ss) else none
  | .serviceStatus status ns =>
    if s.registered then some (onServiceStatusChange s status ns) else none
  | .capabilities n => if s.registered then some (onCapabilitiesChange s n) else none

/-- An `init` that gets a manager with the given `maxDataSize` and an open gate. -/
def bringUp (maxDataSize : Nat) : List Event :=
  .init true .serviceAvailable ::
    List.replicate 7 (.control true .success maxDataSize .inService .serviceAvailable)

/-- The steps of `shutdown` from the join on. -/
def tearDown : List Event :=
  List.replicate 4 (.control true .success 0 .inService .serviceAvailable)

/-- The steps of a new worker up to a frame whose limit is known. -/
def takeFrame : List Event := List.replicate 10 .work

end SatComm.Service
