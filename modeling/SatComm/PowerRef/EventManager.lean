import SatComm.Power.Server
import SatComm.Runs.Basic

/-!
# The event queue of the power daemon

Triggers push events, each a TCU-activity state for a machine. The first event of the queue has a
command at the TCU-activity manager; when it completes, the leading events of its state are answered
together, and the next one gets its command.

The manager answers each command by one callback; where that says success and the state is not
RESUME, one acknowledgement of the slaves follows. Pushes and completions each run under the lock of
the queue and are one step. The callback of a RESUME releases the wake lock once more after it has
left the lock, which is a step of its own. The listeners are registered before.
-/

namespace SatComm

namespace PowerRef

open Power (TcuActivityState)

inductive TriggerType
  | naoip | sms | gpio | can | unknown
deriving DecidableEq, Repr

/-- The statuses that an event is answered with. -/
inductive EventStatus
  | rejectedInvalidMachineName | rejectedEventOverridden | failedTcuActivity
  | failedTcuActivityTimeout | succeed
deriving DecidableEq, Repr

/-- `other` stands for every value but `SUCCESS` and `EXPIRED`. -/
inductive Status
  | success | expired | other
deriving DecidableEq, Repr

abbrev ALL_MACHINES : String := "ALL_MACHINES"

/-- Each event has its own identifier. -/
structure Event where
  id : Nat
  triggeredState : TcuActivityState
  machineName : String
  triggerType : TriggerType
deriving DecidableEq, Repr

/-- Listeners are told apart by numbers. -/
abbrev Listeners := TriggerType → List Nat

inductive Answer
  | processed (succeed : Bool)
  | rejected
deriving DecidableEq, Repr

/-- `onEventProcessed` or `onEventRejected`, with the status that the event has then. -/
structure Report where
  listener : Nat
  event : Event
  answer : Answer
  status : EventStatus
deriving DecidableEq, Repr

/-- A call of `setActivityState`. `initiated` once its callback has said success. -/
structure Command where
  event : Event
  initiated : Bool
deriving DecidableEq, Repr

/-- `commands` holds the calls that are not completed, `issued` all of them in order. `pushed` and
`entered` say which events were pushed and which came into the queue. `releases` counts the RESUME
callbacks that have still to release the wake lock. -/
structure EventManager where
  eventQueue : List Event
  commands : List Command
  issued : List Event
  pushed : List Event
  entered : List Event
  reports : List Report
  wakeLock : Bool
  releases : Nat
deriving DecidableEq, Repr

/-- Whom a report about an event of this trigger type goes to. -/
def Listeners.of (eventListeners : Listeners) (triggerType : TriggerType) : List Nat :=
  eventListeners .unknown ++ eventListeners triggerType

namespace EventManager

def new : EventManager where
  eventQueue := []
  commands := []
  issued := []
  pushed := []
  entered := []
  reports := []
  wakeLock := false
  releases := 0

def holdWakeLock (s : EventManager) : EventManager := { s with wakeLock := true }

def releaseWakeLock (s : EventManager) : EventManager := { s with wakeLock := false }

def setActivityState (s : EventManager) (event : Event) : EventManager :=
  { s with commands := s.commands ++ [⟨event, false⟩], issued := s.issued ++ [event] }

def notifyOnEventRejected (eventListeners : Listeners) (s : EventManager) (event : Event)
    (status : EventStatus) : EventManager :=
  { s with reports := s.reports ++
      (eventListeners.of event.triggerType).map (⟨·, event, .rejected, status⟩) }

/-- The loop ends at the first event of another state. -/
def notifyAndEraseEventProcessed (eventListeners : Listeners) (s : EventManager)
    (triggerType : TriggerType) (triggeredState : TcuActivityState) (succeed : Bool)
    (status : EventStatus) : EventManager :=
  let sameState := fun event : Event => event.triggeredState = triggeredState
  { s with
    reports := s.reports ++ (s.eventQueue.takeWhile sameState).flatMap fun event =>
      (eventListeners.of triggerType).map (⟨·, event, .processed succeed, status⟩)
    eventQueue := s.eventQueue.dropWhile sameState }

def updateEventStatus (eventListeners : Listeners) (s : EventManager) (event : Event)
    (removeFromQueue succeed : Bool) (status : EventStatus) : EventManager :=
  if removeFromQueue then
    s.notifyAndEraseEventProcessed eventListeners event.triggerType event.triggeredState succeed
      status
  else if succeed then s
  else s.notifyOnEventRejected eventListeners event status

/-- The name is not one of those that the manager gave, where it gave any. -/
def invalidMachineName (machineNames : Option (List String)) (event : Event) : Bool :=
  machineNames.any fun names =>
    decide (event.machineName ∉ names ∧ event.machineName ≠ ALL_MACHINES)

/-- `event` overrides an event of another state that is not the one in progress. -/
def overrides (event : Event) (inProgressTrigger : TcuActivityState) (queued : Event) : Bool :=
  decide (queued.triggeredState ≠ event.triggeredState ∧
    queued.triggeredState ≠ inProgressTrigger)

/-- `machineNames` is what `getAllMachineNames` gave, and `available` whether the service is. -/
def pushEvent (eventListeners : Listeners) (s : EventManager) (event : Event)
    (machineNames : Option (List String)) (available : Bool) : EventManager :=
  if invalidMachineName machineNames event then
    s.updateEventStatus eventListeners event false false .rejectedInvalidMachineName
  else
    match s.eventQueue with
    | first :: _ =>
      let overridden := s.eventQueue.filter (overrides event first.triggeredState)
      let s := { s with
        eventQueue := s.eventQueue.filter fun queued =>
          ! overrides event first.triggeredState queued }
      let s := overridden.foldl (fun s overridden =>
        s.updateEventStatus eventListeners overridden false false .rejectedEventOverridden) s
      { s with eventQueue := s.eventQueue ++ [event], entered := s.entered ++ [event] }
    | [] =>
      if available then
        { s.holdWakeLock with
          eventQueue := [event]
          entered := s.entered ++ [event] }.setActivityState event
      else s.updateEventStatus eventListeners event false false .failedTcuActivity

/-- The last event of the queue has another state than the first. -/
def conflicts (s : EventManager) (processedEvent : Event) : Bool :=
  s.eventQueue.getLast?.any fun latest =>
    decide (latest.triggeredState ≠ processedEvent.triggeredState)

/-- Where there is no conflict, an event counts as executed whatever its status is. -/
def processedEventHandler (eventListeners : Listeners) (s : EventManager) (status : EventStatus) :
    EventManager :=
  match s.eventQueue with
  | [] => s
  | processedEvent :: _ =>
    let s :=
      if s.conflicts processedEvent then
        s.updateEventStatus eventListeners processedEvent true false .rejectedEventOverridden
      else s.updateEventStatus eventListeners processedEvent true true status
    match s.eventQueue with
    | nextEvent :: _ => s.setActivityState nextEvent
    | [] => s.releaseWakeLock

def completed (s : EventManager) (n : Nat) : EventManager :=
  { s with commands := s.commands.eraseIdx n }

/-- The callback of command `n`. -/
def onCommandCallback (eventListeners : Listeners) (s : EventManager) (n : Nat) (succeed : Bool) :
    Option EventManager := do
  let command ← s.commands[n]?
  if command.initiated then none
  else if ! succeed then
    some ((s.completed n).processedEventHandler eventListeners .failedTcuActivity)
  else if command.event.triggeredState = .resume then
    let s := (s.completed n).processedEventHandler eventListeners .succeed
    some { s with releases := s.releases + 1 }
  else some { s with commands := s.commands.set n { command with initiated := true } }

def ackEventStatus : Status → EventStatus
  | .success => .succeed
  | .expired => .failedTcuActivityTimeout
  | .other => .failedTcuActivity

/-- The acknowledgement for command `n`. -/
def onSlaveAckStatusUpdate (eventListeners : Listeners) (s : EventManager) (n : Nat)
    (status : Status) : Option EventManager := do
  let command ← s.commands[n]?
  if command.initiated then
    some ((s.completed n).processedEventHandler eventListeners (ackEventStatus status))
  else none

end EventManager

inductive Step
  | push (event : Event) (machineNames : Option (List String)) (available : Bool)
  | callback (n : Nat) (succeed : Bool)
  | slaveAck (n : Nat) (status : Status)
  /-- The last line of a RESUME callback. -/
  | release
deriving DecidableEq, Repr

def step (eventListeners : Listeners) (s : EventManager) : Step → Option EventManager
  | .push event machineNames available =>
    if event.id ∈ s.pushed.map Event.id then none
    else
      some ({ s with pushed := event :: s.pushed }.pushEvent eventListeners event machineNames
        available)
  | .callback n succeed => s.onCommandCallback eventListeners n succeed
  | .slaveAck n status => s.onSlaveAckStatusUpdate eventListeners n status
  | .release =>
    if s.releases = 0 then none else some { s.releaseWakeLock with releases := s.releases - 1 }

end PowerRef

end SatComm
