import SatComm.Runs.Along
import SatComm.Runs.Maps

/-!
# The event service

A client starts its stream by `registerForEvents`, which the server does not answer, and then sends
the filters it is interested in by `updateFilter`, the whole list each time; when it ends it sends
`cleanup`. The server handles each message under the lock of its clients, those of a client that are
in flight in any order but for its `updateFilter` messages, which wait for one another. Events are
posted to a queue. A dispatcher makes a task of each, and a thread of its own writes them, one after
the other, to the streams of the clients that have the filter.
-/

namespace SatComm

namespace Events

structure EventResponse where
  filter : String
  any : List UInt8
deriving DecidableEq, Repr

/-- What the server stores for a client. The writer is named by the client whose stream it is. -/
structure Client where
  filters : List String
  clientWriter : Option Int
deriving DecidableEq, Repr

/-- A client process and its messages in flight. -/
structure Connection where
  /-- `registerForEvents` is in flight. -/
  registering : Bool
  /-- The lists of the `updateFilter` messages in flight. -/
  updates : List (List String)
  /-- How many `cleanup` messages are in flight. -/
  cleanups : Nat
  /-- The list of the last `updateFilter`. -/
  last : Option (List String)
  /-- No `cleanup` is handled yet. -/
  connected : Bool
deriving DecidableEq, Repr

/-- No message of the client is in flight. -/
def Connection.Quiet (c : Connection) : Prop :=
  c.registering = false ∧ c.updates = [] ∧ c.cleanups = 0

instance (c : Connection) : Decidable c.Quiet := inferInstanceAs (Decidable (_ ∧ _))

/-- A posted event. -/
structure Post where
  /-- How many events were posted before. -/
  number : Nat
  event : EventResponse
  /-- The connected clients whose last list has the filter, if no message of a connected client is
  in flight. -/
  recipients : Option (List Int)
deriving DecidableEq, Repr

structure State where
  connections : Assoc.Map Int Connection
  clients : Assoc.Map Int Client
  eventQ : List Post
  orderedTasks : List Post
  /-- The events that were posted. -/
  posted : List Post
  /-- What was written to which stream. -/
  written : List (Int × Post)
deriving DecidableEq

def initial : State where
  connections := .empty
  clients := .empty
  eventQ := []
  orderedTasks := []
  posted := []
  written := []

inductive Event
  /-- `getEvents` sends `registerForEvents`. -/
  | getEvents (clientId : Int)
  /-- The client sends `updateFilter`. -/
  | updateFilters (clientId : Int) (filters : List String)
  /-- The client sends `cleanup`. -/
  | exit (clientId : Int)
  /-- The server handles a message of the client. -/
  | registerForEvents (clientId : Int)
  | updateFilter (clientId : Int)
  | cleanup (clientId : Int)
  | updateEventQueue (event : EventResponse)
  | eventDispatcher
  | eventWriter
deriving DecidableEq, Repr

/-- The stream that an event of this filter is written to for the client. -/
def Client.stream? (client : Client) (filter : String) : Option Int :=
  if filter ∈ client.filters then client.clientWriter else none

namespace State

/-- The list that the server has for the client. -/
def filters (s : State) (clientId : Int) : List String :=
  ((s.clients.get? clientId).map (·.filters)).getD []

def writer (s : State) (clientId : Int) : Option Int :=
  (s.clients.get? clientId).bind (·.clientWriter)

/-- The events that are not written yet. -/
def waiting (s : State) : List Post := s.orderedTasks ++ s.eventQ

/-- No message of a connected client is in flight. -/
def Settled (s : State) : Prop := ∀ c ∈ s.connections.values, c.connected → c.Quiet

instance (s : State) : Decidable s.Settled :=
  inferInstanceAs (Decidable (∀ c ∈ s.connections.values, c.connected → c.Quiet))

/-- The connected clients whose last list has the filter. -/
def interested (s : State) (filter : String) : List Int :=
  s.connections.pairs.filterMap fun (clientId, c) =>
    if c.connected ∧ filter ∈ c.last.getD [] then some clientId else none

def setConnection (s : State) (clientId : Int) (c : Connection) : State :=
  { s with connections := s.connections.set clientId c }

/-- Every connection has a process identifier of its own. -/
def getEvents (s : State) (clientId : Int) : State :=
  match s.connections.get? clientId with
  | some _ => s
  | none => s.setConnection clientId ⟨true, [], 0, none, true⟩

def updateFilters (s : State) (clientId : Int) (filters : List String) : State :=
  match s.connections.get? clientId with
  | none => s
  | some c =>
    s.setConnection clientId { c with updates := c.updates ++ [filters], last := some filters }

def exit (s : State) (clientId : Int) : State :=
  match s.connections.get? clientId with
  | none => s
  | some c => s.setConnection clientId { c with cleanups := c.cleanups + 1 }

/-- The entry of the client is replaced. -/
def registerForEvents (s : State) (clientId : Int) : State :=
  match s.connections.get? clientId with
  | none => s
  | some c =>
    if c.registering then
      { s.setConnection clientId { c with registering := false } with
        clients := s.clients.set clientId ⟨[], some clientId⟩ }
    else s

/-- `clients_[request->client_id()]` makes an entry without a writer if there is none. -/
def updateFilter (s : State) (clientId : Int) : State :=
  match s.connections.get? clientId with
  | none => s
  | some c =>
    match c.updates with
    | [] => s
    | filters :: updates =>
      { s.setConnection clientId { c with updates := updates } with
        clients := s.clients.set clientId
          { (s.clients.get? clientId).getD ⟨[], none⟩ with filters := filters } }

def cleanup (s : State) (clientId : Int) : State :=
  match s.connections.get? clientId with
  | none => s
  | some c =>
    if c.cleanups > 0 then
      { s.setConnection clientId { c with cleanups := c.cleanups - 1, connected := false } with
        clients := s.clients.erase clientId }
    else s

def updateEventQueue (s : State) (event : EventResponse) : State :=
  let p : Post := ⟨s.posted.length, event,
    if s.Settled then some (s.interested event.filter) else none⟩
  { s with eventQ := s.eventQ ++ [p], posted := s.posted ++ [p] }

def eventDispatcher (s : State) : State :=
  match s.eventQ with
  | [] => s
  | p :: eventQ => { s with eventQ := eventQ, orderedTasks := s.orderedTasks ++ [p] }

/-- The streams that the event is written to. -/
def streams (s : State) (filter : String) : List Int :=
  s.clients.values.filterMap (·.stream? filter)

/-- `executeTask` takes the first task. The order of the clients is that of an unordered map. -/
def eventWriter (s : State) : State :=
  match s.orderedTasks with
  | [] => s
  | p :: tasks =>
    { s with
      orderedTasks := tasks
      written := s.written ++ (s.streams p.event.filter).map (·, p) }

def step (s : State) : Event → State
  | .getEvents clientId => s.getEvents clientId
  | .updateFilters clientId filters => s.updateFilters clientId filters
  | .exit clientId => s.exit clientId
  | .registerForEvents clientId => s.registerForEvents clientId
  | .updateFilter clientId => s.updateFilter clientId
  | .cleanup clientId => s.cleanup clientId
  | .updateEventQueue event => s.updateEventQueue event
  | .eventDispatcher => s.eventDispatcher
  | .eventWriter => s.eventWriter

/-- The dispatcher and the writer go on until no event waits. -/
def drain (s : State) : State :=
  (List.replicate s.eventQ.length Event.eventDispatcher ++
    List.replicate s.waiting.length Event.eventWriter).foldl step s

end State

end Events

end SatComm
