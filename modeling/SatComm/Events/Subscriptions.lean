import SatComm.Events.Service

/-!
# Who gets an event

Along every run in which the server handles the `registerForEvents` of a client before it loses a
list of filters by it, handles no `updateFilter` of a client for a stream that outlives its
`cleanup`, and in which no message changes who gets an event that waits, the server has the last
list of every client whose messages are handled, and each event that was posted while no message
was in flight is written once to the clients it is for, in the order of the posts.
-/

namespace SatComm

namespace Events

open Runs

/-- The client and the server agree, and events are written to whom they are for. -/
structure Agree (s : State) : Prop where
  filters : ∀ clientId c, s.connections.get? clientId = some c → c.connected → c.Quiet →
    ∀ filters ∈ c.last, (s.clients.get? clientId).map (·.filters) = some filters
  written : ∀ p ∈ s.posted, ∀ clients ∈ p.recipients, p ∉ s.waiting →
    ∀ clientId, s.written.count (clientId, p) = if clientId ∈ clients then 1 else 0
  drained : s.drain.waiting = [] ∧ ∀ p ∈ s.posted, ∀ clients ∈ p.recipients,
    ∀ clientId, s.drain.written.count (clientId, p) = if clientId ∈ clients then 1 else 0
  order : s.written.Pairwise fun w w' => w.1 = w'.1 → w.2.number < w'.2.number
  streams : ∀ w ∈ s.written, ∃ c, s.connections.get? w.1 = some c ∧ c.registering = false

/-- A new list of the client changes nothing for the events that wait. -/
def Keeps (s : State) (clientId : Int) (filters : List String) : Prop :=
  s.writer clientId ≠ none → ∀ p ∈ s.waiting, p.recipients.isSome →
    (p.event.filter ∈ filters ↔ p.event.filter ∈ s.filters clientId)

instance (s : State) (clientId : Int) (filters : List String) :
    Decidable (Keeps s clientId filters) :=
  inferInstanceAs (Decidable (_ → _))

/-- No list of filters is lost, no stream is left to a client that is gone, and no message changes
who gets an event that waits. -/
def Careful (s : State) : Event → Prop
  | .registerForEvents clientId => ∀ c ∈ s.connections.get? clientId, c.registering →
      c.connected → c.updates = [] → c.cleanups = 0 → s.filters clientId = []
  | .updateFilter clientId => ∀ c ∈ s.connections.get? clientId, ∀ filters ∈ c.updates.head?,
      Keeps s clientId filters ∧
      (c.connected = false → s.writer clientId ≠ none → filters = [])
  | .cleanup clientId => ∀ c ∈ s.connections.get? clientId, c.cleanups > 0 → Keeps s clientId []
  | .getEvents _ | .updateFilters .. | .exit _ | .updateEventQueue _ | .eventDispatcher
  | .eventWriter => True

instance (s : State) (e : Event) : Decidable (Careful s e) := by
  cases e <;> unfold Careful <;> infer_instance

/-! ## What a step does -/

/-- Only the connection and the entry of one client change. -/
structure Changes (s s' : State) (clientId : Int) (c : Connection) (client : Option Client) :
    Prop where
  eventQ : s'.eventQ = s.eventQ
  orderedTasks : s'.orderedTasks = s.orderedTasks
  posted : s'.posted = s.posted
  written : s'.written = s.written
  connections : ∀ id, s'.connections.get? id =
    if id = clientId then some c else s.connections.get? id
  clients : ∀ id, s'.clients.get? id = if id = clientId then client else s.clients.get? id

/-- The steps. -/
inductive Moves (s : State) : Event → State → Prop
  | stay (e : Event) : Moves s e s
  | getEvents {clientId s'} (hnew : s.connections.get? clientId = none)
      (h : Changes s s' clientId ⟨true, [], 0, none, true⟩ (s.clients.get? clientId)) :
      Moves s (.getEvents clientId) s'
  | updateFilters {clientId filters c s'} (hc : s.connections.get? clientId = some c)
      (h : Changes s s' clientId { c with updates := c.updates ++ [filters], last := some filters }
        (s.clients.get? clientId)) :
      Moves s (.updateFilters clientId filters) s'
  | exit {clientId c s'} (hc : s.connections.get? clientId = some c)
      (h : Changes s s' clientId { c with cleanups := c.cleanups + 1 } (s.clients.get? clientId)) :
      Moves s (.exit clientId) s'
  | registerForEvents {clientId c s'} (hc : s.connections.get? clientId = some c)
      (hregistering : c.registering = true)
      (h : Changes s s' clientId { c with registering := false } (some ⟨[], some clientId⟩)) :
      Moves s (.registerForEvents clientId) s'
  | updateFilter {clientId c filters updates s'} (hc : s.connections.get? clientId = some c)
      (hupdates : c.updates = filters :: updates)
      (h : Changes s s' clientId { c with updates := updates }
        (some { (s.clients.get? clientId).getD ⟨[], none⟩ with filters := filters })) :
      Moves s (.updateFilter clientId) s'
  | cleanup {clientId c s'} (hc : s.connections.get? clientId = some c)
      (hcleanups : c.cleanups > 0)
      (h : Changes s s' clientId { c with cleanups := c.cleanups - 1, connected := false } none) :
      Moves s (.cleanup clientId) s'
  | updateEventQueue (event : EventResponse) :
      Moves s (.updateEventQueue event) (s.updateEventQueue event)
  | eventDispatcher {p eventQ} (h : s.eventQ = p :: eventQ) :
      Moves s .eventDispatcher
        { s with eventQ := eventQ, orderedTasks := s.orderedTasks ++ [p] }
  | eventWriter {p tasks} (h : s.orderedTasks = p :: tasks) :
      Moves s .eventWriter
        { s with
          orderedTasks := tasks
          written := s.written ++ (s.streams p.event.filter).map (·, p) }

variable {s s' : State} {e : Event} {clientId : Int} {c : Connection} {client : Option Client}

theorem changes_setConnection (s : State) (clientId : Int) (c : Connection) :
    Changes s (s.setConnection clientId c) clientId c (s.clients.get? clientId) where
  eventQ := rfl
  orderedTasks := rfl
  posted := rfl
  written := rfl
  connections _ := Assoc.Map.get?_set _ _ _ _
  clients id := by
    split_ifs with h
    · rw [h]
      rfl
    · rfl

theorem changes_set (s : State) (clientId : Int) (c : Connection) (client : Client) :
    Changes s { s.setConnection clientId c with clients := s.clients.set clientId client }
      clientId c (some client) where
  eventQ := rfl
  orderedTasks := rfl
  posted := rfl
  written := rfl
  connections _ := Assoc.Map.get?_set _ _ _ _
  clients _ := Assoc.Map.get?_set _ _ _ _

theorem changes_erase (s : State) (clientId : Int) (c : Connection) :
    Changes s { s.setConnection clientId c with clients := s.clients.erase clientId }
      clientId c none where
  eventQ := rfl
  orderedTasks := rfl
  posted := rfl
  written := rfl
  connections _ := Assoc.Map.get?_set _ _ _ _
  clients _ := Assoc.Map.get?_erase _ _ _

theorem moves_step (s : State) (e : Event) : Moves s e (s.step e) := by
  cases e with
  | getEvents clientId =>
    simp only [State.step, State.getEvents]
    cases hc : s.connections.get? clientId with
    | some c => exact Moves.stay _
    | none => exact Moves.getEvents hc (changes_setConnection s clientId _)
  | updateFilters clientId filters =>
    simp only [State.step, State.updateFilters]
    cases hc : s.connections.get? clientId with
    | none => exact Moves.stay _
    | some c => exact Moves.updateFilters hc (changes_setConnection s clientId _)
  | exit clientId =>
    simp only [State.step, State.exit]
    cases hc : s.connections.get? clientId with
    | none => exact Moves.stay _
    | some c => exact Moves.exit hc (changes_setConnection s clientId _)
  | registerForEvents clientId =>
    simp only [State.step, State.registerForEvents]
    cases hc : s.connections.get? clientId with
    | none => exact Moves.stay _
    | some c =>
      dsimp only
      split_ifs with hregistering
      · exact Moves.registerForEvents hc hregistering (changes_set s clientId _ _)
      · exact Moves.stay _
  | updateFilter clientId =>
    simp only [State.step, State.updateFilter]
    cases hc : s.connections.get? clientId with
    | none => exact Moves.stay _
    | some c =>
      cases hupdates : c.updates with
      | nil => simpa only [hupdates] using Moves.stay _
      | cons filters updates =>
        simpa only [hupdates] using Moves.updateFilter hc hupdates (changes_set s clientId _ _)
  | cleanup clientId =>
    simp only [State.step, State.cleanup]
    cases hc : s.connections.get? clientId with
    | none => exact Moves.stay _
    | some c =>
      dsimp only
      split_ifs with hcleanups
      · exact Moves.cleanup hc hcleanups (changes_erase s clientId _)
      · exact Moves.stay _
  | updateEventQueue event => exact Moves.updateEventQueue event
  | eventDispatcher =>
    simp only [State.step, State.eventDispatcher]
    cases hq : s.eventQ with
    | nil => exact Moves.stay _
    | cons p eventQ => exact Moves.eventDispatcher hq
  | eventWriter =>
    simp only [State.step, State.eventWriter]
    cases hq : s.orderedTasks with
    | nil => exact Moves.stay _
    | cons p tasks => exact Moves.eventWriter hq

/-! ## The streams and the posts, along any run -/

/-- The server has handled the `registerForEvents` of the client. -/
def State.Registered (s : State) (clientId : Int) : Prop :=
  ∃ c, s.connections.get? clientId = some c ∧ c.registering = false

/-- An event of this filter is written to the client. -/
def State.Writes (s : State) (clientId : Int) (filter : String) : Prop :=
  s.writer clientId ≠ none ∧ filter ∈ s.filters clientId

structure Base (s : State) : Prop where
  stream : ∀ clientId client, s.clients.get? clientId = some client →
    ∀ w ∈ client.clientWriter, w = clientId ∧ s.Registered clientId
  written : ∀ w ∈ s.written, s.Registered w.1
  numbers : s.posted.map (·.number) = List.range s.posted.length
  posted : ∃ done, s.posted = done ++ s.waiting ∧ ∀ w ∈ s.written, w.2 ∈ done
  order : s.written.Pairwise fun w w' => w.1 = w'.1 → w.2.number < w'.2.number

theorem Changes.registered (h : Changes s s' clientId c client)
    (hc : ∀ old, s.connections.get? clientId = some old → old.registering = false →
      c.registering = false) {id : Int} (hid : s.Registered id) : s'.Registered id := by
  obtain ⟨old, hold, hregistering⟩ := hid
  by_cases heq : id = clientId
  · subst heq
    exact ⟨c, by rw [h.connections, if_pos rfl], hc old hold hregistering⟩
  · exact ⟨old, by rw [h.connections, if_neg heq]; exact hold, hregistering⟩

theorem Changes.waiting (h : Changes s s' clientId c client) : s'.waiting = s.waiting := by
  rw [State.waiting, State.waiting, h.orderedTasks, h.eventQ]

namespace Base

/-- A message is sent or handled. -/
theorem changes (hs : Base s) (h : Changes s s' clientId c client)
    (hc : ∀ old, s.connections.get? clientId = some old → old.registering = false →
      c.registering = false)
    (hclient : ∀ client' ∈ client, ∀ w ∈ client'.clientWriter,
      w = clientId ∧ s'.Registered clientId) : Base s' where
  stream id client' hget w hw := by
    rw [h.clients] at hget
    split_ifs at hget with hid
    · rw [hid]
      exact hclient client' hget w hw
    · obtain ⟨rfl, hregistered⟩ := hs.stream id client' hget w hw
      exact ⟨rfl, h.registered hc hregistered⟩
  written w hw := by
    rw [h.written] at hw
    exact h.registered hc (hs.written w hw)
  numbers := by
    rw [h.posted]
    exact hs.numbers
  posted := by
    rw [h.posted, h.waiting, h.written]
    exact hs.posted
  order := by
    rw [h.written]
    exact hs.order

theorem nodup_streams (hs : Base s) (filter : String) : (s.streams filter).Nodup := by
  refine Assoc.Map.nodup_filterMap_values fun clientId client hget w hw => ?_
  simp only [Client.stream?, Option.mem_def, Option.ite_none_right_eq_some] at hw
  exact (hs.stream clientId client hget w hw.2).1

theorem mem_streams (hs : Base s) {filter : String} :
    clientId ∈ s.streams filter ↔ s.Writes clientId filter := by
  simp only [State.streams, List.mem_filterMap, Assoc.Map.mem_values, Client.stream?,
    Option.ite_none_right_eq_some]
  constructor
  · rintro ⟨client, ⟨id, hget⟩, hfilter, hwriter⟩
    obtain ⟨rfl, -⟩ := hs.stream id client hget clientId hwriter
    simp [State.Writes, State.writer, State.filters, hget, hwriter, hfilter]
  · rintro ⟨hwriter, hfilter⟩
    cases hget : s.clients.get? clientId with
    | none => simp [State.filters, hget] at hfilter
    | some client =>
      obtain ⟨w, hw⟩ := Option.ne_none_iff_exists'.mp hwriter
      simp only [State.writer, hget, Option.bind_some] at hw
      simp only [State.filters, hget, Option.map_some, Option.getD_some] at hfilter
      obtain ⟨rfl, -⟩ := hs.stream clientId client hget w hw
      exact ⟨client, ⟨w, hget⟩, hfilter, hw⟩

/-- What is written was posted before what waits. -/
theorem number_lt (hs : Base s) {w : Int × Post} (hw : w ∈ s.written) {p : Post}
    (hp : p ∈ s.waiting) : w.2.number < p.number := by
  obtain ⟨done, hposted, hdone⟩ := hs.posted
  have hsorted : (s.posted.map (·.number)).Pairwise (· < ·) := by
    rw [hs.numbers]
    exact List.pairwise_lt_range
  rw [List.pairwise_map, hposted] at hsorted
  exact (List.pairwise_append.mp hsorted).2.2 w.2 (hdone w hw) p hp

/-- The next event is written. -/
theorem eventWriter (hs : Base s) {p : Post} {tasks : List Post} (h : s.orderedTasks = p :: tasks) :
    Base { s with
      orderedTasks := tasks
      written := s.written ++ (s.streams p.event.filter).map (·, p) } where
  stream := hs.stream
  written w hw := by
    rcases List.mem_append.mp hw with hw | hw
    · exact hs.written w hw
    · obtain ⟨id, hid, rfl⟩ := List.mem_map.mp hw
      obtain ⟨client, hclient, hstream⟩ := List.mem_filterMap.mp hid
      obtain ⟨clientId, hget⟩ := Assoc.Map.mem_values.mp hclient
      simp only [Client.stream?, Option.ite_none_right_eq_some] at hstream
      obtain ⟨rfl, hregistered⟩ := hs.stream clientId client hget id hstream.2
      exact hregistered
  numbers := hs.numbers
  posted := by
    obtain ⟨done, hposted, hdone⟩ := hs.posted
    refine ⟨done ++ [p], ?_, fun w hw => ?_⟩
    · simp only [hposted, State.waiting, h, List.cons_append, List.append_assoc, List.nil_append]
    · rcases List.mem_append.mp hw with hw | hw
      · exact List.mem_append_left _ (hdone w hw)
      · obtain ⟨id, -, rfl⟩ := List.mem_map.mp hw
        exact List.mem_append_right _ List.mem_cons_self
  order := by
    refine List.pairwise_append.mpr ⟨hs.order, ?_, fun w hw w' hw' _ => ?_⟩
    · -- no stream gets the event twice
      refine List.pairwise_map.mpr ((hs.nodup_streams p.event.filter).imp ?_)
      intro id id' hne heq
      exact absurd heq hne
    · obtain ⟨id, -, rfl⟩ := List.mem_map.mp hw'
      exact hs.number_lt hw (by rw [State.waiting, h]; exact List.mem_cons_self)

theorem posts (hs : Base s) (event : EventResponse) : Base (s.updateEventQueue event) where
  stream := hs.stream
  written := hs.written
  numbers := by
    simp only [State.updateEventQueue, List.map_append, hs.numbers, List.length_append,
      List.map_cons, List.map_nil, List.length_cons, List.length_nil, List.range_succ]
  posted := by
    obtain ⟨done, hposted, hdone⟩ := hs.posted
    refine ⟨done, ?_, hdone⟩
    simp only [State.updateEventQueue, State.waiting, hposted, List.append_assoc]
  order := hs.order

theorem eventDispatcher (hs : Base s) {p : Post} {eventQ : List Post} (h : s.eventQ = p :: eventQ) :
    Base { s with eventQ := eventQ, orderedTasks := s.orderedTasks ++ [p] } where
  stream := hs.stream
  written := hs.written
  numbers := hs.numbers
  posted := by
    obtain ⟨done, hposted, hdone⟩ := hs.posted
    refine ⟨done, ?_, hdone⟩
    simp only [hposted, State.waiting, h, List.append_assoc, List.cons_append, List.nil_append]
  order := hs.order

theorem keeps {c' : Connection} (hc : s.connections.get? clientId = some c)
    (h : c.registering = false → c'.registering = false) :
    ∀ old, s.connections.get? clientId = some old → old.registering = false →
      c'.registering = false := by
  intro old hold hregistering
  obtain rfl := Option.some.inj (hc.symm.trans hold)
  exact h hregistering

theorem writer_eq (hs : Base s) (h : Changes s s' clientId c client)
    (hc : ∀ old, s.connections.get? clientId = some old → old.registering = false →
      c.registering = false) {old : Client} (hold : s.clients.get? clientId = some old) (w : Int)
    (hw : w ∈ old.clientWriter) : w = clientId ∧ s'.Registered clientId := by
  obtain ⟨rfl, hregistered⟩ := hs.stream clientId old hold w hw
  exact ⟨rfl, h.registered hc hregistered⟩

theorem step (hs : Base s) (e : Event) : Base (s.step e) := by
  generalize hs' : s.step e = s'
  have hmoves := moves_step s e
  rw [hs'] at hmoves
  cases hmoves with
  | stay => exact hs
  | @getEvents clientId _ hnew h =>
    have hkeeps : ∀ old, s.connections.get? clientId = some old → old.registering = false →
        true = false := fun old hold => by cases hnew.symm.trans hold
    exact hs.changes h hkeeps fun client hget => hs.writer_eq h hkeeps hget
  | updateFilters hc h | exit hc h =>
    have hkeeps := keeps hc fun hregistering => hregistering
    exact hs.changes h hkeeps fun client hget => hs.writer_eq h hkeeps hget
  | registerForEvents hc hregistering h =>
    refine hs.changes h (fun _ _ _ => rfl) ?_
    rintro client ⟨⟩ w ⟨⟩
    exact ⟨rfl, _, by rw [h.connections, if_pos rfl], rfl⟩
  | @updateFilter clientId _ _ _ _ hc hupdates h =>
    have hkeeps := keeps hc fun hregistering => hregistering
    refine hs.changes h hkeeps ?_
    rintro client ⟨⟩ w hw
    cases hget : s.clients.get? clientId with
    | none => simp [hget] at hw
    | some old =>
      simp only [hget, Option.getD_some] at hw
      exact hs.writer_eq h hkeeps hget w hw
  | cleanup hc hcleanups h =>
    exact hs.changes h (keeps hc fun hregistering => hregistering) nofun
  | updateEventQueue event => exact hs.posts event
  | eventDispatcher h => exact hs.eventDispatcher h
  | eventWriter h => exact hs.eventWriter h

end Base

theorem base_initial : Base initial where
  stream := nofun
  written := nofun
  numbers := rfl
  posted := ⟨[], rfl, nofun⟩
  order := List.Pairwise.nil

/-! ## What the server has for each client -/

/-- What a client has sent and what the server has for it. -/
structure Matches (c : Connection) (stream : Option Int) (list : List String) : Prop where
  writer : c.connected → c.registering = false → stream ≠ none
  filters : c.connected → c.updates = [] → c.cleanups = 0 → list = c.last.getD []
  last : c.updates ≠ [] → c.updates.getLast? = c.last
  gone : c.connected = false → stream ≠ none → list = []

structure Inv (s : State) : Prop extends Base s where
  unknown : ∀ clientId, s.connections.get? clientId = none → s.clients.get? clientId = none
  client : ∀ clientId c, s.connections.get? clientId = some c →
    Matches c (s.writer clientId) (s.filters clientId)
  forWhom : ∀ p ∈ s.waiting, ∀ clients ∈ p.recipients, ∀ clientId,
    clientId ∈ clients ↔ s.Writes clientId p.event.filter
  delivered : ∀ p ∈ s.posted, ∀ clients ∈ p.recipients, p ∉ s.waiting →
    ∀ clientId, s.written.count (clientId, p) = if clientId ∈ clients then 1 else 0

theorem inv_initial : Inv initial where
  toBase := base_initial
  unknown _ _ := rfl
  client := nofun
  forWhom := nofun
  delivered := nofun

/-- What `Keeps` says of who gets an event that waits. -/
theorem writes_iff_of_keeps (h : Changes s s' clientId c client) {filters : List String}
    (hkeeps : Keeps s clientId filters) (hfilters : (client.map (·.filters)).getD [] = filters)
    (hwriter : filters ≠ [] → client.bind (·.clientWriter) = s.writer clientId) {p : Post}
    (hp : p ∈ s.waiting) (hsome : p.recipients.isSome) :
    s'.Writes clientId p.event.filter ↔ s.Writes clientId p.event.filter := by
  rw [State.Writes, State.writer, State.filters, h.clients, if_pos rfl, hfilters]
  constructor
  · rintro ⟨hnew, hfilter⟩
    rw [hwriter (List.ne_nil_of_mem hfilter)] at hnew
    exact ⟨hnew, (hkeeps hnew p hp hsome).mp hfilter⟩
  · rintro ⟨hold, hfilter⟩
    have hmem := (hkeeps hold p hp hsome).mpr hfilter
    exact ⟨by rw [hwriter (List.ne_nil_of_mem hmem)]; exact hold, hmem⟩

namespace Inv

theorem changes (hs : Inv s) (hbase : Base s') (h : Changes s s' clientId c client)
    (hclient : Matches c (client.bind (·.clientWriter)) ((client.map (·.filters)).getD []))
    (hwaiting : ∀ p ∈ s.waiting, p.recipients.isSome →
      (s'.Writes clientId p.event.filter ↔ s.Writes clientId p.event.filter)) : Inv s' where
  toBase := hbase
  unknown id hid := by
    rw [h.connections] at hid
    split_ifs at hid with heq
    rw [h.clients, if_neg heq]
    exact hs.unknown id hid
  client id c' hc' := by
    rw [h.connections] at hc'
    rw [State.writer, State.filters, h.clients]
    split_ifs at hc' ⊢ with heq
    · obtain rfl := Option.some.inj hc'
      exact hclient
    · exact hs.client id c' hc'
  forWhom p hp clients hclients id := by
    rw [h.waiting] at hp
    rw [hs.forWhom p hp clients hclients]
    by_cases heq : id = clientId
    · rw [heq]
      exact (hwaiting p hp (Option.isSome_of_mem hclients)).symm
    · rw [State.Writes, State.Writes, State.writer, State.writer, State.filters, State.filters,
        h.clients, if_neg heq]
  delivered := by
    rw [h.posted, h.waiting, h.written]
    exact hs.delivered

/-- A client sends a message. -/
theorem sends (hs : Inv s) (hbase : Base s')
    (h : Changes s s' clientId c (s.clients.get? clientId))
    (hclient : Matches c (s.writer clientId) (s.filters clientId)) : Inv s' := by
  refine hs.changes hbase h hclient fun p _ _ => ?_
  rw [State.Writes, State.Writes, State.writer, State.writer, State.filters, State.filters,
    h.clients, if_pos rfl]

/-- No stream is there before the server has it. -/
theorem writer_of_registering (hs : Base s) (hc : s.connections.get? clientId = some c)
    (hregistering : c.registering = true) : s.writer clientId = none := by
  by_contra hwriter
  obtain ⟨w, hw⟩ := Option.ne_none_iff_exists'.mp hwriter
  obtain ⟨client, hget, hclient⟩ := Option.bind_eq_some_iff.mp hw
  obtain ⟨-, old, hold, hfalse⟩ := hs.stream clientId client hget w hclient
  obtain rfl := Option.some.inj (hc.symm.trans hold)
  rw [hregistering] at hfalse
  cases hfalse

/-- A posted event is for whom it would be written to. -/
theorem mem_interested (hs : Inv s) (hsettled : s.Settled) (filter : String) :
    clientId ∈ s.interested filter ↔ s.Writes clientId filter := by
  simp only [State.interested, List.mem_filterMap, Option.ite_none_right_eq_some,
    Option.some.injEq]
  constructor
  · rintro ⟨⟨id, c⟩, hmem, ⟨hconnected, hfilter⟩, rfl⟩
    have hc := Assoc.Map.mem_pairs.mp hmem
    have hclient := hs.client id c hc
    obtain ⟨hregistering, hupdates, hcleanups⟩ :=
      hsettled c (Assoc.Map.mem_values.mpr ⟨id, hc⟩) hconnected
    refine ⟨hclient.writer hconnected hregistering, ?_⟩
    rw [hclient.filters hconnected hupdates hcleanups]
    exact hfilter
  · rintro ⟨hwriter, hfilter⟩
    cases hc : s.connections.get? clientId with
    | none => simp [State.filters, hs.unknown clientId hc] at hfilter
    | some c =>
      have hclient := hs.client clientId c hc
      cases hconnected : c.connected with
      | false =>
        rw [hclient.gone hconnected hwriter] at hfilter
        cases hfilter
      | true =>
        obtain ⟨-, hupdates, hcleanups⟩ :=
          hsettled c (Assoc.Map.mem_values.mpr ⟨clientId, hc⟩) hconnected
        rw [hclient.filters hconnected hupdates hcleanups] at hfilter
        exact ⟨(clientId, c), Assoc.Map.mem_pairs.mpr hc, ⟨hconnected, hfilter⟩, rfl⟩

theorem posts (hs : Inv s) (event : EventResponse) : Inv (s.updateEventQueue event) where
  toBase := hs.toBase.posts event
  unknown := hs.unknown
  client := hs.client
  forWhom p hp clients hclients clientId := by
    simp only [State.updateEventQueue, State.waiting, ← List.append_assoc] at hp
    rcases List.mem_append.mp hp with hp | hp
    · exact hs.forWhom p hp clients hclients clientId
    · obtain rfl := List.mem_singleton.mp hp
      simp only [Option.mem_def, Option.ite_none_right_eq_some, Option.some.injEq] at hclients
      obtain ⟨hsettled, rfl⟩ := hclients
      exact hs.mem_interested hsettled event.filter
  delivered p hp clients hclients hwritten clientId := by
    simp only [State.updateEventQueue, State.waiting, ← List.append_assoc] at hwritten
    rw [List.mem_append, not_or] at hwritten
    rcases List.mem_append.mp hp with hp | hp
    · exact hs.delivered p hp clients hclients hwritten.1 clientId
    · exact absurd hp hwritten.2

theorem eventDispatcher (hs : Inv s) {p : Post} {eventQ : List Post} (h : s.eventQ = p :: eventQ) :
    Inv { s with eventQ := eventQ, orderedTasks := s.orderedTasks ++ [p] } := by
  have hwaiting : State.waiting { s with eventQ := eventQ, orderedTasks := s.orderedTasks ++ [p] } =
      s.waiting := by
    simp only [State.waiting, h, List.append_assoc, List.cons_append, List.nil_append]
  refine ⟨hs.toBase.eventDispatcher h, hs.unknown, hs.client, ?_, ?_⟩
  · rw [hwaiting]
    exact hs.forWhom
  · rw [hwaiting]
    exact hs.delivered

theorem eventWriter (hs : Inv s) {p : Post} {tasks : List Post} (h : s.orderedTasks = p :: tasks) :
    Inv { s with
      orderedTasks := tasks
      written := s.written ++ (s.streams p.event.filter).map (·, p) } := by
  have hwaiting : s.waiting = p :: (tasks ++ s.eventQ) := by rw [State.waiting, h, List.cons_append]
  refine ⟨hs.toBase.eventWriter h, hs.unknown, hs.client, fun q hq => ?_, ?_⟩
  · exact hs.forWhom q (by rw [hwaiting]; exact List.mem_cons_of_mem p hq)
  · intro q hq clients hclients hwritten clientId
    rw [List.count_append]
    by_cases heq : q = p
    · subst heq
      have hp : q ∈ s.waiting := by rw [hwaiting]; exact List.mem_cons_self
      have hbefore : s.written.count (clientId, q) = 0 := by
        refine List.count_eq_zero.mpr fun hmem => ?_
        exact absurd (hs.number_lt hmem hp) (Nat.lt_irrefl _)
      have hnow : ((s.streams q.event.filter).map (·, q)).count (clientId, q) =
          (s.streams q.event.filter).count clientId :=
        List.count_map_of_injective _ _ (Prod.mk_left_injective q) clientId
      rw [hbefore, hnow, Nat.zero_add, (hs.nodup_streams _).count]
      exact if_congr (hs.mem_streams.trans (hs.forWhom q hp clients hclients clientId).symm) rfl rfl
    · have hnow : ((s.streams p.event.filter).map (·, p)).count (clientId, q) = 0 := by
        refine List.count_eq_zero.mpr fun hmem => ?_
        obtain ⟨id, -, hid⟩ := List.mem_map.mp hmem
        exact heq (congrArg Prod.snd hid).symm
      rw [hnow, Nat.add_zero]
      refine hs.delivered q hq clients hclients ?_ clientId
      rw [hwaiting, List.mem_cons, not_or]
      exact ⟨heq, hwritten⟩

theorem step (hs : Inv s) (he : Careful s e) : Inv (s.step e) := by
  have hbase := hs.toBase.step e
  generalize hs' : s.step e = s' at hbase
  have hmoves := moves_step s e
  rw [hs'] at hmoves
  cases hmoves with
  | stay => exact hs
  | @getEvents clientId _ hnew h =>
    refine hs.sends hbase h ⟨nofun, fun _ _ _ => ?_, fun hne => absurd rfl hne, nofun⟩
    rw [State.filters, hs.unknown clientId hnew]
    rfl
  | @updateFilters clientId filters c _ hc h =>
    have hclient := hs.client clientId c hc
    refine hs.sends hbase h ⟨hclient.writer, fun _ hnil _ => ?_, fun _ => ?_, hclient.gone⟩
    · exact absurd hnil (List.append_ne_nil_of_right_ne_nil _ (List.cons_ne_nil _ _))
    · exact List.getLast?_concat
  | @exit clientId c _ hc h =>
    have hclient := hs.client clientId c hc
    exact hs.sends hbase h ⟨hclient.writer, nofun, hclient.last, hclient.gone⟩
  | @registerForEvents clientId c _ hc hregistering h =>
    have hclient := hs.client clientId c hc
    have hnone := writer_of_registering hs.toBase hc hregistering
    refine hs.changes hbase h ⟨fun _ _ => nofun, fun hconnected hnil hcleanups => ?_,
      hclient.last, fun _ _ => rfl⟩ fun p hp hsome => ?_
    · rw [← hclient.filters hconnected hnil hcleanups]
      exact (he c hc hregistering hconnected hnil hcleanups).symm
    · -- neither the old entry nor the new one gets an event
      rw [State.Writes, State.Writes, State.writer, State.filters, h.clients, if_pos rfl]
      simp [hnone]
  | @updateFilter clientId c filters updates _ hc hupdates h =>
    have hclient := hs.client clientId c hc
    obtain ⟨hkeeps, hgone⟩ := he c hc filters (by rw [hupdates]; rfl)
    have hwriter :
        ((s.clients.get? clientId).getD ⟨[], none⟩).clientWriter = s.writer clientId := by
      rw [State.writer]
      cases s.clients.get? clientId <;> rfl
    refine hs.changes hbase h ⟨?_, fun _ hnil _ => ?_, fun hne => ?_, ?_⟩ fun p hp hsome => ?_
    · rw [Option.bind_some, hwriter]
      exact hclient.writer
    · -- this is the list sent last
      have hlast := hclient.last (by rw [hupdates]; exact List.cons_ne_nil _ _)
      obtain rfl : updates = [] := hnil
      rw [hupdates, List.getLast?_singleton] at hlast
      simp only [← hlast, Option.map_some, Option.getD_some]
    · have hlast := hclient.last (by rw [hupdates]; exact List.cons_ne_nil _ _)
      rw [hupdates, List.getLast?_cons_of_ne_nil hne] at hlast
      exact hlast
    · rw [Option.bind_some, hwriter]
      exact hgone
    · exact writes_iff_of_keeps h hkeeps rfl (fun _ => hwriter) hp hsome
  | @cleanup clientId c _ hc hcleanups h =>
    have hclient := hs.client clientId c hc
    refine hs.changes hbase h ⟨nofun, nofun, hclient.last, fun _ => absurd rfl⟩ fun p hp hsome => ?_
    exact writes_iff_of_keeps h (he c hc hcleanups) rfl (fun hne => absurd rfl hne) hp hsome
  | updateEventQueue event => exact hs.posts event
  | eventDispatcher h => exact hs.eventDispatcher h
  | eventWriter h => exact hs.eventWriter h

end Inv

/-! ## The threads of the server -/

theorem dispatch_replicate (s : State) (n : Nat) :
    (List.replicate n Event.eventDispatcher).foldl State.step s =
      { s with eventQ := s.eventQ.drop n, orderedTasks := s.orderedTasks ++ s.eventQ.take n } := by
  induction n generalizing s with
  | zero => simp
  | succ n ih =>
    rw [List.replicate_succ, List.foldl_cons, ih]
    cases hq : s.eventQ with
    | nil => simp [State.step, State.eventDispatcher, hq]
    | cons p eventQ => simp [State.step, State.eventDispatcher, hq]

theorem write_replicate (s : State) (n : Nat) : ∃ written,
    (List.replicate n Event.eventWriter).foldl State.step s =
      { s with orderedTasks := s.orderedTasks.drop n, written := written } := by
  induction n generalizing s with
  | zero => exact ⟨s.written, rfl⟩
  | succ n ih =>
    rw [List.replicate_succ, List.foldl_cons]
    obtain ⟨written, hwritten⟩ := ih (s.step .eventWriter)
    rw [hwritten]
    cases hq : s.orderedTasks with
    | nil => exact ⟨written, by simp [State.step, State.eventWriter, hq]⟩
    | cons p tasks => exact ⟨written, by simp [State.step, State.eventWriter, hq]⟩

theorem drain_eq (s : State) : ∃ written,
    s.drain = { s with eventQ := [], orderedTasks := [], written := written } := by
  rw [State.drain, List.foldl_append, dispatch_replicate]
  obtain ⟨written, hwritten⟩ := write_replicate
    { s with
      eventQ := s.eventQ.drop s.eventQ.length
      orderedTasks := s.orderedTasks ++ s.eventQ.take s.eventQ.length } s.waiting.length
  refine ⟨written, hwritten.trans ?_⟩
  simp [State.waiting]

theorem Inv.drain (hs : Inv s) : Inv s.drain := by
  refine Along.invariant Inv (fun s e hs he => hs.step he) hs (along_of_mem fun e he s => ?_)
  rcases List.mem_append.mp he with he | he
  · rw [List.eq_of_mem_replicate he]
    trivial
  · rw [List.eq_of_mem_replicate he]
    trivial

theorem Inv.agree (hs : Inv s) : Agree s where
  filters clientId c hc hconnected hquiet filters hfilters := by
    obtain ⟨hregistering, hupdates, hcleanups⟩ := hquiet
    have hclient := hs.client clientId c hc
    have hwriter := hclient.writer hconnected hregistering
    have hlist := hclient.filters hconnected hupdates hcleanups
    rw [Option.mem_def.mp hfilters, Option.getD_some] at hlist
    cases hget : s.clients.get? clientId with
    | none => simp [State.writer, hget] at hwriter
    | some client =>
      rw [State.filters, hget] at hlist
      exact congrArg some hlist
  written := hs.delivered
  drained := by
    obtain ⟨written, hdrain⟩ := drain_eq s
    have hwaiting : s.drain.waiting = [] := by rw [hdrain]; rfl
    refine ⟨hwaiting, fun p hp clients hclients clientId => ?_⟩
    refine hs.drain.delivered p ?_ clients hclients ?_ clientId
    · rw [hdrain]
      exact hp
    · rw [hwaiting]
      exact List.not_mem_nil
  order := hs.order
  streams := hs.toBase.written

/-- Subscriptions reach the server and events reach whom they are for, along every careful run. -/
theorem subscriptions_agree (es : List Event) (h : Along State.step Careful initial es) :
    Agree (es.foldl State.step initial) := by
  apply Inv.agree
  exact h.invariant Inv (fun s e hs he => hs.step he) inv_initial

/-- Two clients subscribe, one of them before its stream is there, and an event is posted. -/
theorem subscriptions_agree_two :
    Agree (([.getEvents 7, .updateFilters 7 [], .updateFilter 7, .getEvents 9,
      .updateFilters 9 ["nav"], .updateFilters 7 ["loc", "nav"], .registerForEvents 9,
      .registerForEvents 7, .updateFilter 7, .updateFilter 9, .updateEventQueue ⟨"loc", [1]⟩,
      .updateEventQueue ⟨"nav", [2]⟩, .eventDispatcher, .eventWriter, .eventDispatcher,
      .eventWriter, .exit 9, .cleanup 9] : List Event).foldl State.step initial) :=
  subscriptions_agree _ (by decide)

/-- `registerForEvents` is handled after `updateFilter` and drops the filters. -/
theorem filters_dropped : ¬ ∀ es : List Event, Agree (es.foldl State.step initial) := by
  intro h
  have hfilters := (h [.getEvents 7, .updateFilters 7 ["loc"], .updateFilter 7,
    .registerForEvents 7]).filters 7 ⟨false, [], 0, some ["loc"], true⟩ (by decide) rfl (by decide)
    ["loc"] rfl
  exact absurd hfilters (by decide)

end Events

end SatComm
