import SatComm.Runs.Along

/-!
# The TCU-activity server

`PowerManagerServiceImpl` suspends, shuts down and resumes the local machine or all machines. A
suspend is a task: it waits for the acknowledgements of the slaves, reports to the master who did
not acknowledge, and if there is such a slave it waits a second time, for a RESUME that halts it.

Requests run as one step each. A task begins when the thread of its queue is free; its steps are
the report after the first wait, made with `ackMutex_` taken, and the end of the second wait, up
to which the mutex is held. A client that connects replaces the task queue: the tasks of the old
queue that have not begun are dropped, and a task that runs goes on beside those of the new one.
-/

namespace SatComm

namespace Power

inductive TcuActivityState
  | resume | suspend | shutdown | unknown
deriving DecidableEq, Repr

inductive MachineName
  | machLocal | machAll
deriving DecidableEq, Repr

inductive AckType
  | ackSuspend | ackShutdown | nackSuspend | nackShutdown
deriving DecidableEq, Repr

inductive ClientType
  | master | slave
deriving DecidableEq, Repr

inductive ServiceStatus
  | unavailable | available | failed
deriving DecidableEq, Repr

/-- The error codes of the replies. `other` stands for those that only the configuration gives. -/
inductive ErrorCode
  | success | requestNotSupported | incompatibleState | other (code : Int)
deriving DecidableEq, Repr

structure ClientInfo where
  clientName : String
  machineName : MachineName
deriving DecidableEq, Repr

/-- A suspend or a shutdown, from the notification of the slaves on. `acked` holds the slaves that
have acknowledged it. -/
structure Cycle where
  state : TcuActivityState
  machineName : MachineName
  acked : List String
deriving DecidableEq, Repr

inductive Task
  | initiateSuspend (cycle : Cycle)
  | doResume (machineName : MachineName)
deriving DecidableEq, Repr

/-- A thread in `initiateSuspend`. It is attached if it is the one of the current task queue, and
`resumed` if a RESUME was answered with success during its second wait. -/
structure SuspendThread where
  cycle : Cycle
  attached : Bool
  inWindow : Bool
  resumed : Bool
deriving DecidableEq, Repr

structure PowerManager where
  master : String
  slaves : List ClientInfo
  ackClients : List String
  nackClients : List String
  noackClients : List String
  considerAck : Bool
  withinSuspendTimeout : Bool
  resumeReceivedWithinTimeout : Bool
  localMachState : TcuActivityState
  allMachState : TcuActivityState
  /-- The tasks of the current queue that have not begun. -/
  queue : List Task
  threads : List SuspendThread
deriving DecidableEq, Repr

namespace AckType

def positive : AckType → Bool
  | .ackSuspend | .ackShutdown => true
  | .nackSuspend | .nackShutdown => false

end AckType

def machine? (machName : String) : Option MachineName :=
  if machName = "ALL_MACHINES" then some .machAll
  else if machName = "LOCAL_MACHINE" ∨ machName = "PVM" then some .machLocal
  else none

/-- Whether the slave gets the notifications for the machine. -/
def ClientInfo.expected (machineName : MachineName) (slave : ClientInfo) : Bool :=
  ! (machineName = .machLocal && slave.machineName = .machAll)

def Cycle.acknowledge (clientName : String) (cycle : Cycle) : Cycle :=
  { cycle with acked := clientName :: cycle.acked }

namespace Task

def acknowledge (clientName : String) : Task → Task
  | .initiateSuspend cycle => .initiateSuspend (cycle.acknowledge clientName)
  | .doResume machineName => .doResume machineName

def cycle? : Task → Option Cycle
  | .initiateSuspend cycle => some cycle
  | .doResume _ => none

end Task

namespace SuspendThread

def detach (t : SuspendThread) : SuspendThread := { t with attached := false }

def acknowledge (clientName : String) (t : SuspendThread) : SuspendThread :=
  { t with cycle := t.cycle.acknowledge clientName }

def resume (t : SuspendThread) : SuspendThread := { t with resumed := t.resumed || t.inWindow }

end SuspendThread

namespace PowerManager

/-- No client is connected, but one has been, so there is a task queue. -/
def new : PowerManager where
  master := ""
  slaves := []
  ackClients := []
  nackClients := []
  noackClients := []
  considerAck := true
  withinSuspendTimeout := false
  resumeReceivedWithinTimeout := false
  localMachState := .resume
  allMachState := .resume
  queue := []
  threads := []

def windowOpen (m : PowerManager) : Bool := m.threads.any (·.inWindow)

def busy (m : PowerManager) : Bool := m.threads.any (·.attached)

def machState (m : PowerManager) : MachineName → TcuActivityState
  | .machLocal => m.localMachState
  | .machAll => m.allMachState

/-- The task queue is replaced where the service is available. -/
def renewQueue (m : PowerManager) (status : ServiceStatus) : PowerManager :=
  if status = .available then { m with queue := [], threads := m.threads.map SuspendThread.detach }
  else m

/-- `configured` is the status in the configuration, where this can be read. -/
def initService (m : PowerManager) (clientType : ClientType) (clientName machName : String)
    (configured : Option ServiceStatus) : PowerManager :=
  match machine? machName, configured with
  | some machineName, some status =>
    match clientType with
    | .master => if m.master = "" then renewQueue { m with master := clientName } status else m
    | .slave => renewQueue { m with slaves := m.slaves ++ [⟨clientName, machineName⟩] } status
  | _, _ => m

def deregisterFromServer (m : PowerManager) (clientType : ClientType) (clientName : String) :
    PowerManager :=
  match clientType with
  | .master => { m with master := "" }
  | .slave => { m with slaves := m.slaves.eraseP fun slave => slave.clientName == clientName }

def doResume (m : PowerManager) : MachineName → PowerManager
  | .machLocal => { m with localMachState := .resume }
  | .machAll => { m with localMachState := .resume, allMachState := .resume }

/-- What `initiateSuspend` ends with if it is not halted. -/
def assign (m : PowerManager) (cycle : Cycle) : PowerManager :=
  match cycle.machineName with
  | .machLocal => { m with localMachState := cycle.state }
  | .machAll => { m with localMachState := cycle.state, allMachState := cycle.state }

/-- The slaves are notified and the lists of the previous cycle are cleared. -/
def beginCycle (m : PowerManager) (state : TcuActivityState) (machineName : MachineName) :
    PowerManager :=
  { m with
    considerAck := true
    ackClients := []
    nackClients := []
    noackClients := []
    queue := m.queue ++ [.initiateSuspend ⟨state, machineName, []⟩] }

/-- The state after the request and the error in the reply. `configured` is the error in the
configuration. -/
def sendActivityState (m : PowerManager) (state : TcuActivityState) (machineName : MachineName)
    (configured : ErrorCode) : PowerManager × ErrorCode :=
  if state = .unknown then (m, .requestNotSupported)
  else if state = m.machState machineName then
    if state = .resume then
      if m.localMachState ≠ .resume then (m.doResume machineName, .success)
      else if m.withinSuspendTimeout then
        ({ m with resumeReceivedWithinTimeout := true }.doResume machineName, .success)
      else (m, .incompatibleState)
    else (m, .incompatibleState)
  else if configured = .success then
    if state ≠ .resume then (m.beginCycle state machineName, .success)
    else ({ m with queue := m.queue ++ [.doResume machineName] }, .success)
  else (m, configured)

/-- The name is put on the list for the acknowledgement. -/
def addAck (m : PowerManager) (clientName : String) (ackType : AckType) : PowerManager :=
  if m.considerAck then
    if ackType.positive then { m with ackClients := m.ackClients ++ [clientName] }
    else { m with nackClients := m.nackClients ++ [clientName] }
  else m

/-- The cycles whose report is to come take note of a positive acknowledgement. -/
def noteAck (m : PowerManager) (clientName : String) (ackType : AckType) : PowerManager :=
  if ackType.positive then
    { m with
      queue := m.queue.map (Task.acknowledge clientName)
      threads := m.threads.map (SuspendThread.acknowledge clientName) }
  else m

/-- The request needs `ackMutex_`, which is not free during a second wait. -/
def sendActivityStateAck (m : PowerManager) (clientName : String) (ackType : AckType) :
    PowerManager :=
  if m.windowOpen then m else (m.addAck clientName ackType).noteAck clientName ackType

/-- The thread of the queue takes the next task. -/
def beginTask (m : PowerManager) : PowerManager :=
  if m.busy then m
  else
    match m.queue with
    | [] => m
    | .initiateSuspend cycle :: tasks =>
      { m with queue := tasks, threads := m.threads ++ [⟨cycle, true, false, false⟩] }
    | .doResume machineName :: tasks => { m with queue := tasks }.doResume machineName

/-- The slaves that are put on the no-ack list. -/
def noAcks (m : PowerManager) (machineName : MachineName) : List String :=
  (m.slaves.filter fun slave =>
    ! m.ackClients.contains slave.clientName && ! m.nackClients.contains slave.clientName &&
      slave.expected machineName).map ClientInfo.clientName

/-- The lists that `notifyMasterOnSlaveAck` sends: not acknowledged and no answer. -/
def report (m : PowerManager) (cycle : Cycle) : List String × List String :=
  (m.nackClients, m.noackClients ++ m.noAcks cycle.machineName)

/-- The first wait of the thread with number `n` is over. -/
def collect (m : PowerManager) (n : Nat) : PowerManager :=
  match m.threads[n]? with
  | some t =>
    if m.windowOpen then m
    else
      let report := m.report t.cycle
      let m := { m with considerAck := false, noackClients := report.2 }
      if report.2 ≠ [] ∨ report.1 ≠ [] then
        { m with
          withinSuspendTimeout := true
          threads := m.threads.set n { t with inWindow := true } }
      else { m with threads := m.threads.eraseIdx n }.assign t.cycle
  | none => m

/-- The second wait of the thread with number `n` is over. -/
def timeout (m : PowerManager) (n : Nat) : PowerManager :=
  match m.threads[n]? with
  | some t =>
    if t.inWindow then
      let m := { m with withinSuspendTimeout := false, threads := m.threads.eraseIdx n }
      if m.resumeReceivedWithinTimeout then { m with resumeReceivedWithinTimeout := false }
      else m.assign t.cycle
    else m
  | none => m

end PowerManager

inductive Event
  | initService (clientType : ClientType) (clientName machName : String)
      (configured : Option ServiceStatus)
  | deregisterFromServer (clientType : ClientType) (clientName : String)
  | sendActivityState (state : TcuActivityState) (machineName : MachineName)
      (configured : ErrorCode)
  | sendActivityStateAck (clientName : String) (ackType : AckType)
  | beginTask
  | collect (n : Nat)
  | timeout (n : Nat)
deriving DecidableEq, Repr

namespace PowerManager

def step (m : PowerManager) : Event → PowerManager
  | .initService clientType clientName machName configured =>
    m.initService clientType clientName machName configured
  | .deregisterFromServer clientType clientName => m.deregisterFromServer clientType clientName
  | .sendActivityState state machineName configured =>
    let reply := m.sendActivityState state machineName configured
    if state = .resume ∧ reply.2 = .success then
      { reply.1 with threads := reply.1.threads.map SuspendThread.resume }
    else reply.1
  | .sendActivityStateAck clientName ackType => m.sendActivityStateAck clientName ackType
  | .beginTask => m.beginTask
  | .collect n => m.collect n
  | .timeout n => m.timeout n

end PowerManager

end Power

end SatComm
