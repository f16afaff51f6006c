import SatComm.PowerRef.EventManager

/-!
# What the event manager does

A push is answered at once, or puts the event behind what it does not override, or starts it. A
completion takes the leading events of one state out of the queue, reports each, and starts the next
event or releases the wake lock.
-/

namespace SatComm

namespace PowerRef

open Power (TcuActivityState)

variable {eventListeners : Listeners} {s s' : EventManager} {event first : Event}
  {rest : List Event}

/-- One report to each of these listeners. -/
def reportsTo (listeners : List Nat) (answer : Answer) (status : EventStatus) (event : Event) :
    List Report :=
  listeners.map (⟨·, event, answer, status⟩)

/-- The reports of a rejection. -/
def rejections (eventListeners : Listeners) (status : EventStatus) (event : Event) : List Report :=
  reportsTo (eventListeners.of event.triggerType) .rejected status event

/-- The reports of a processed event, which go to the listeners of another event's trigger type. -/
def processings (eventListeners : Listeners) (triggerType : TriggerType) (succeed : Bool)
    (status : EventStatus) (event : Event) : List Report :=
  reportsTo (eventListeners.of triggerType) (.processed succeed) status event

/-- The events that are answered with the first one. -/
def leading (first : Event) (queue : List Event) : List Event :=
  queue.takeWhile fun event => event.triggeredState = first.triggeredState

/-- What stays behind them. -/
def remaining (first : Event) (queue : List Event) : List Event :=
  queue.dropWhile fun event => event.triggeredState = first.triggeredState

theorem leading_append_remaining (first : Event) (queue : List Event) :
    leading first queue ++ remaining first queue = queue :=
  List.takeWhile_append_dropWhile

theorem triggeredState_of_mem_leading {queue : List Event} (h : event ∈ leading first queue) :
    event.triggeredState = first.triggeredState := by
  simpa using List.mem_takeWhile_imp h

namespace EventManager

@[simp]
theorem updateEventStatus_rejected (s : EventManager) (event : Event) (status : EventStatus) :
    s.updateEventStatus eventListeners event false false status =
      { s with reports := s.reports ++ rejections eventListeners status event } := rfl

theorem foldl_updateEventStatus (overridden : List Event) (status : EventStatus)
    (s : EventManager) :
    overridden.foldl (fun s event => s.updateEventStatus eventListeners event false false status)
      s = { s with
        reports := s.reports ++ overridden.flatMap (rejections eventListeners status) } := by
  induction overridden generalizing s with
  | nil => simp
  | cons event overridden ih =>
    rw [List.foldl_cons, ih, updateEventStatus_rejected, List.flatMap_cons, List.append_assoc]

/-- Everything a push can do. -/
theorem pushEvent_cases (eventListeners : Listeners) (s : EventManager) (event : Event)
    (machineNames : Option (List String)) (available : Bool) :
    (invalidMachineName machineNames event = true ∨ s.eventQueue = [] ∧ available = false) ∧
      (∃ status, s.pushEvent eventListeners event machineNames available =
        { s with reports := s.reports ++ rejections eventListeners status event }) ∨
    (∃ first rest, s.eventQueue = first :: rest ∧ invalidMachineName machineNames event = false ∧
      s.pushEvent eventListeners event machineNames available =
        { s with
          eventQueue := s.eventQueue.filter (fun queued =>
            ! overrides event first.triggeredState queued) ++ [event]
          entered := s.entered ++ [event]
          reports := s.reports ++
            (s.eventQueue.filter (overrides event first.triggeredState)).flatMap
              (rejections eventListeners .rejectedEventOverridden) }) ∨
    s.eventQueue = [] ∧ available = true ∧ invalidMachineName machineNames event = false ∧
      s.pushEvent eventListeners event machineNames available =
        { s with
          eventQueue := [event]
          entered := s.entered ++ [event]
          commands := s.commands ++ [⟨event, false⟩]
          issued := s.issued ++ [event]
          wakeLock := true } := by
  by_cases hvalid : invalidMachineName machineNames event = true
  · refine .inl ⟨.inl hvalid, .rejectedInvalidMachineName, ?_⟩
    rw [pushEvent, if_pos hvalid, updateEventStatus_rejected]
  · rw [Bool.not_eq_true] at hvalid
    by_cases hqueue : s.eventQueue = []
    · cases available with
      | true =>
        refine .inr (.inr ⟨hqueue, rfl, hvalid, ?_⟩)
        simp [pushEvent, hvalid, hqueue, holdWakeLock, setActivityState]
      | false =>
        refine .inl ⟨.inr ⟨hqueue, rfl⟩, .failedTcuActivity, ?_⟩
        simp [pushEvent, hvalid, hqueue]
    · obtain ⟨first, rest, hcons⟩ := List.exists_cons_of_ne_nil hqueue
      refine .inr (.inl ⟨first, rest, hcons, hvalid, ?_⟩)
      rw [pushEvent, hvalid, hcons]
      simp only [Bool.false_eq_true, if_false, foldl_updateEventStatus]

/-- What a completion leaves of a queue that is not empty. -/
theorem processedEventHandler_cons (eventListeners : Listeners) (status : EventStatus)
    (h : s.eventQueue = first :: rest) :
    ∃ succeed status', (succeed = true → s.conflicts first = false) ∧
      s.processedEventHandler eventListeners status =
        { s with
          eventQueue := remaining first s.eventQueue
          reports := s.reports ++ (leading first s.eventQueue).flatMap
            (processings eventListeners first.triggerType succeed status')
          commands := s.commands ++ (remaining first s.eventQueue).head?.toList.map (⟨·, false⟩)
          issued := s.issued ++ (remaining first s.eventQueue).head?.toList
          wakeLock := if remaining first s.eventQueue = [] then false else s.wakeLock } := by
  have hupdate : ∃ succeed status', (succeed = true → s.conflicts first = false) ∧
      (if s.conflicts first = true then
        s.updateEventStatus eventListeners first true false .rejectedEventOverridden
      else s.updateEventStatus eventListeners first true true status) =
        { s with
          eventQueue := remaining first s.eventQueue
          reports := s.reports ++ (leading first s.eventQueue).flatMap
            (processings eventListeners first.triggerType succeed status') } := by
    by_cases hconflict : s.conflicts first = true
    · rw [if_pos hconflict]
      exact ⟨false, _, nofun, rfl⟩
    · rw [if_neg hconflict]
      exact ⟨true, _, fun _ => by simpa using hconflict, rfl⟩
  obtain ⟨succeed, status', hsucceed, hupdate⟩ := hupdate
  refine ⟨succeed, status', hsucceed, ?_⟩
  unfold processedEventHandler
  rw [h] at hupdate ⊢
  simp only [hupdate]
  cases remaining first (first :: rest) with
  | nil => simp [releaseWakeLock]
  | cons next tail => simp [setActivityState]

theorem processedEventHandler_nil (status : EventStatus) (h : s.eventQueue = []) :
    s.processedEventHandler eventListeners status = s := by
  rw [processedEventHandler, h]

end EventManager

/-- Everything a step can do. A RESUME whose callback says success has its own release to come. -/
theorem step_cases {e : Step} (h : step eventListeners s e = some s') :
    (∃ event machineNames available, e = .push event machineNames available ∧
      event.id ∉ s.pushed.map Event.id ∧
      s' = { s with pushed := event :: s.pushed }.pushEvent eventListeners event machineNames
        available) ∨
    (∃ n command status releases, s.commands[n]? = some command ∧
      (e matches .slaveAck .. ∨ ∃ succeed, e = .callback n succeed ∧
        (succeed = true → command.event.triggeredState = .resume)) ∧
      s' = { (s.completed n).processedEventHandler eventListeners status with
        releases := releases }) ∨
    (∃ n command, s.commands[n]? = some command ∧ e matches .callback .. ∧
      s' = { s with commands := s.commands.set n { command with initiated := true } }) ∨
    e = .release ∧ s' = { s.releaseWakeLock with releases := s.releases - 1 } := by
  cases e with
  | push event machineNames available =>
    simp only [step] at h
    split_ifs at h with hfresh
    cases h
    exact .inl ⟨event, machineNames, available, rfl, hfresh, rfl⟩
  | callback n succeed =>
    obtain ⟨command, hcommand, h⟩ := Option.bind_eq_some_iff.mp h
    split_ifs at h with hinitiated hfail hresume
    · cases h
      refine .inr (.inl ⟨n, command, .failedTcuActivity, _, hcommand, .inr ⟨succeed, rfl, ?_⟩, rfl⟩)
      intro hsucceed
      simp [hsucceed] at hfail
    · cases h
      exact .inr (.inl ⟨n, command, .succeed, _, hcommand, .inr ⟨succeed, rfl, fun _ => hresume⟩,
        rfl⟩)
    · cases h
      exact .inr (.inr (.inl ⟨n, command, hcommand, rfl, rfl⟩))
  | slaveAck n status =>
    obtain ⟨command, hcommand, h⟩ := Option.bind_eq_some_iff.mp h
    split_ifs at h with hinitiated
    cases h
    exact .inr (.inl ⟨n, command, EventManager.ackEventStatus status, _, hcommand, .inl rfl, rfl⟩)
  | release =>
    simp only [step] at h
    split_ifs at h with hnone
    cases h
    exact .inr (.inr (.inr ⟨rfl, rfl⟩))

end PowerRef

end SatComm
