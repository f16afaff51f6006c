import SatComm.PowerRef.LatestWins

/-!
# The answers to events

A completion reports all leading events to the listeners of the first one's trigger type, with
success for each of them, whatever machine it names. Where the leading events have the same
listeners and a success is about one machine, and a listener is registered once for an event, every
event is answered once to each of its listeners, and a success says that its command was issued.
-/

namespace SatComm

namespace PowerRef

open Power (TcuActivityState)

open Runs

variable {eventListeners : Listeners} {s s' : EventManager} {event first : Event}

/-- The report tells a listener about an event. -/
def about (listener : Nat) (event : Event) (report : Report) : Bool :=
  decide (report.listener = listener ∧ report.event = event)

namespace EventManager

/-- How often a listener was told about an event. -/
def received (s : EventManager) (listener : Nat) (event : Event) : Nat :=
  s.reports.countP (about listener event)

/-- The events that a push rejects. -/
def rejectedBy (s : EventManager) (event : Event) (machineNames : Option (List String))
    (available : Bool) : List Event :=
  if invalidMachineName machineNames event then [event]
  else
    match s.eventQueue with
    | first :: _ => s.eventQueue.filter (overrides event first.triggeredState)
    | [] => if available then [] else [event]

/-- The leading events have the listeners of the first one, and where they are answered with
success, its machine. -/
def AnswersLeading (eventListeners : Listeners) (s : EventManager) : Prop :=
  ∀ first ∈ s.eventQueue.head?.toList, ∀ event ∈ leading first s.eventQueue,
    (∀ listener ∈ eventListeners.of event.triggerType,
      (eventListeners.of first.triggerType).count listener = 1) ∧
    (s.conflicts first = false → event.machineName = first.machineName)

instance (eventListeners : Listeners) (s : EventManager) :
    Decidable (s.AnswersLeading eventListeners) :=
  inferInstanceAs (Decidable (∀ _ ∈ _, ∀ _ ∈ _, _ ∧ _))

end EventManager

/-- Every event that is not in the queue was answered once to each of its listeners, and a success
follows a command for its state and machine. -/
structure Answered (eventListeners : Listeners) (s : EventManager) : Prop where
  once : ∀ event ∈ s.pushed, event ∉ s.eventQueue →
    ∀ listener ∈ eventListeners.of event.triggerType, s.received listener event = 1
  waiting : ∀ event ∈ s.eventQueue, ∀ listener, s.received listener event = 0
  truthful : ∀ report ∈ s.reports, report.answer = .processed true →
    ∃ command ∈ s.issued, command.triggeredState = report.event.triggeredState ∧
      command.machineName = report.event.machineName

/-- Who is told of a rejection is registered once, and what a completion answers fits the first
event. -/
def AnswersEach (eventListeners : Listeners) (s : EventManager) : Step → Prop
  | .push event machineNames available => ∀ rejected ∈ s.rejectedBy event machineNames available,
    (eventListeners.of rejected.triggerType).Nodup
  | .callback n succeed =>
    (succeed = true ∧ ∀ command ∈ s.commands[n]?.toList, command.event.triggeredState ≠ .resume) ∨
      s.AnswersLeading eventListeners
  | .slaveAck .. => s.AnswersLeading eventListeners
  | .release => True

instance (s : EventManager) : DecidablePred (AnswersEach eventListeners s)
  | .push .. => inferInstanceAs (Decidable (∀ _ ∈ _, _))
  | .callback .. => inferInstanceAs (Decidable (_ ∨ _))
  | .slaveAck .. => inferInstanceAs (Decidable (s.AnswersLeading eventListeners))
  | .release => inferInstanceAs (Decidable True)

/-- The invariant. -/
structure Told (eventListeners : Listeners) (s : EventManager) : Prop where
  nodup : s.eventQueue.Nodup
  pushed : ∀ event ∈ s.eventQueue, event ∈ s.pushed
  once : ∀ event ∈ s.pushed, event ∉ s.eventQueue →
    ∀ listener ∈ eventListeners.of event.triggerType, s.received listener event = 1
  untold : ∀ event listener, event ∈ s.eventQueue ∨ event ∉ s.pushed →
    s.received listener event = 0
  truthful : ∀ report ∈ s.reports, report.answer = .processed true →
    ∃ command ∈ s.issued, command.triggeredState = report.event.triggeredState ∧
      command.machineName = report.event.machineName

theorem countP_reportsTo (listeners : List Nat) (answer : Answer) (status : EventStatus)
    (listener : Nat) (event event' : Event) :
    (reportsTo listeners answer status event').countP (about listener event) =
      if event' = event then listeners.count listener else 0 := by
  rw [reportsTo, List.countP_map]
  split_ifs with heq
  · rw [List.count]
    apply List.countP_congr
    intro x _
    simp [about, heq]
  · rw [List.countP_eq_zero]
    intro x _
    simp [about, heq]

theorem countP_flatMap_reportsTo (listeners : Event → List Nat) (answer : Answer)
    (status : EventStatus) (listener : Nat) (event : Event) (events : List Event) :
    (events.flatMap fun x => reportsTo (listeners x) answer status x).countP
      (about listener event) = events.count event * (listeners event).count listener := by
  induction events with
  | nil => simp
  | cons x events ih =>
    rw [List.flatMap_cons, List.countP_append, ih, countP_reportsTo, List.count_cons]
    by_cases hx : x = event
    · simp [hx, Nat.succ_mul, Nat.add_comm]
    · simp [hx]

theorem answer_of_mem_reportsTo {listeners : List Nat} {answer : Answer} {status : EventStatus}
    {report : Report} (h : report ∈ reportsTo listeners answer status event) :
    report.answer = answer ∧ report.event = event := by
  obtain ⟨listener, -, rfl⟩ := List.mem_map.mp h
  exact ⟨rfl, rfl⟩

theorem EventManager.rejectedBy_of_rejects {machineNames : Option (List String)} {available : Bool}
    (h : invalidMachineName machineNames event = true ∨ s.eventQueue = [] ∧ available = false) :
    s.rejectedBy event machineNames available = [event] := by
  unfold rejectedBy
  obtain hinvalid | ⟨hempty, hdown⟩ := h
  · rw [if_pos hinvalid]
  · simp [hempty, hdown]

theorem EventManager.rejectedBy_of_queued {machineNames : Option (List String)} {available : Bool}
    {first : Event} {rest : List Event} (hvalid : invalidMachineName machineNames event = false)
    (hqueue : s.eventQueue = first :: rest) :
    s.rejectedBy event machineNames available =
      s.eventQueue.filter (overrides event first.triggeredState) := by
  rw [rejectedBy, hvalid, hqueue]
  rfl

namespace Told

theorem new : Told eventListeners .new :=
  ⟨List.nodup_nil, nofun, nofun, fun _ _ _ => rfl, nofun⟩

theorem answered (h : Told eventListeners s) : Answered eventListeners s :=
  ⟨h.once, fun event hevent listener => h.untold event listener (.inl hevent), h.truthful⟩

theorem of_eq (h : Told eventListeners s) (hqueue : s'.eventQueue = s.eventQueue)
    (hpushed : s'.pushed = s.pushed) (hreports : s'.reports = s.reports)
    (hissued : s'.issued = s.issued) : Told eventListeners s' := by
  obtain ⟨hnodup, hmem, honce, huntold, htruthful⟩ := h
  have hreceived : s'.received = s.received := by
    funext listener event
    rw [EventManager.received, hreports, EventManager.received]
  constructor
  · rwa [hqueue]
  · rwa [hqueue, hpushed]
  · rwa [hqueue, hpushed, hreceived]
  · rwa [hqueue, hpushed, hreceived]
  · rwa [hreports, hissued]

/-- Some queued events are answered, or a new one is at once. `answered` says who. -/
theorem answer (h : Told eventListeners s) (answered : List Event)
    (listeners : Event → List Nat) (kind : Answer) (status : EventStatus)
    (hnodup : s'.eventQueue.Nodup) (hanswered : answered.Nodup)
    (hpushed : ∀ event, event ∈ s'.eventQueue ∨ event ∈ answered ∨ event ∈ s.pushed ↔
      event ∈ s'.pushed)
    (hqueued : ∀ event ∈ s'.eventQueue, event ∈ s.eventQueue ∨ event ∉ s.pushed)
    (hleft : ∀ event ∈ s.eventQueue, event ∉ s'.eventQueue → event ∈ answered)
    (hfrom : ∀ event ∈ answered, event ∉ s'.eventQueue ∧ (event ∈ s.eventQueue ∨ event ∉ s.pushed))
    (hlisteners : ∀ event ∈ answered, ∀ listener ∈ eventListeners.of event.triggerType,
      (listeners event).count listener = 1)
    (hreports : s'.reports =
      s.reports ++ answered.flatMap fun event => reportsTo (listeners event) kind status event)
    (hissued : ∀ command ∈ s.issued, command ∈ s'.issued)
    (htruthful : kind = .processed true → ∀ event ∈ answered, ∃ command ∈ s.issued,
      command.triggeredState = event.triggeredState ∧ command.machineName = event.machineName) :
    Told eventListeners s' := by
  have hreceived : ∀ listener event, s'.received listener event =
      s.received listener event + answered.count event * (listeners event).count listener := by
    intro listener event
    rw [EventManager.received, hreports, List.countP_append, countP_flatMap_reportsTo]
    rfl
  refine ⟨hnodup, fun event hevent => (hpushed event).mp (.inl hevent), ?_, ?_, ?_⟩
  · intro event hevent hout listener hlistener
    rw [hreceived]
    by_cases hnow : event ∈ answered
    · rw [h.untold event listener (hfrom event hnow).2, List.count_eq_one_of_mem hanswered hnow,
        hlisteners event hnow listener hlistener]
    · have hbefore : event ∈ s.pushed :=
        (((hpushed event).mpr hevent).resolve_left hout).resolve_left hnow
      have hgone : event ∉ s.eventQueue := fun hin => hnow (hleft event hin hout)
      rw [h.once event hbefore hgone listener hlistener, List.count_eq_zero_of_not_mem hnow,
        Nat.zero_mul]
  · intro event listener hevent
    have hnot : event ∉ answered := by
      intro hnow
      obtain hin | hout := hevent
      · exact (hfrom event hnow).1 hin
      · exact hout ((hpushed event).mp (.inr (.inl hnow)))
    rw [hreceived, List.count_eq_zero_of_not_mem hnot, Nat.zero_mul, Nat.add_zero]
    apply h.untold
    obtain hin | hout := hevent
    · exact hqueued event hin
    · exact .inr fun hbefore => hout ((hpushed event).mp (.inr (.inr hbefore)))
  · intro report hreport hsuccess
    rw [hreports] at hreport
    obtain hold | hnew := List.mem_append.mp hreport
    · obtain ⟨command, hcommand, hsame⟩ := h.truthful report hold hsuccess
      exact ⟨command, hissued command hcommand, hsame⟩
    · obtain ⟨event, hevent, hmem⟩ := List.mem_flatMap.mp hnew
      obtain ⟨hkind, rfl⟩ := answer_of_mem_reportsTo hmem
      obtain ⟨command, hcommand, hsame⟩ :=
        htruthful (hkind.symm.trans hsuccess) report.event hevent
      exact ⟨command, hissued command hcommand, hsame⟩

/-- The event itself is rejected. -/
theorem rejected (h : Told eventListeners s) (status : EventStatus) (hnew : event ∉ s.pushed)
    (hlisteners : ∀ listener ∈ eventListeners.of event.triggerType,
      (eventListeners.of event.triggerType).count listener = 1) :
    Told eventListeners { s with
      pushed := event :: s.pushed
      reports := s.reports ++ rejections eventListeners status event } := by
  have hout : event ∉ s.eventQueue := fun hmem => hnew (h.pushed event hmem)
  refine h.answer [event] (fun x => eventListeners.of x.triggerType) .rejected status h.nodup
    (List.nodup_singleton event) (fun x => ?_) (fun x hx => .inl hx)
    (fun x hx hgone => absurd hx hgone) (fun x hx => ?_) (List.forall_mem_singleton.mpr hlisteners)
    ?_ (fun _ hx => hx) (fun hkind => nomatch hkind)
  · rw [List.mem_singleton, List.mem_cons]
    exact ⟨fun hx => hx.elim (fun hx => .inr (h.pushed x hx)) id, .inr⟩
  · rw [List.mem_singleton.mp hx]
    exact ⟨hout, .inr hnew⟩
  · exact (List.append_cancel_left_eq ..).mpr (List.flatMap_singleton ..).symm

/-- The event is queued, and those that it overrides are rejected. -/
theorem overriding (h : Told eventListeners s) (state : TcuActivityState) (hnew : event ∉ s.pushed)
    (hlisteners : ∀ rejected ∈ s.eventQueue.filter (EventManager.overrides event state),
      ∀ listener ∈ eventListeners.of rejected.triggerType,
        (eventListeners.of rejected.triggerType).count listener = 1) :
    Told eventListeners { s with
      pushed := event :: s.pushed
      eventQueue := s.eventQueue.filter (fun queued =>
        ! EventManager.overrides event state queued) ++ [event]
      entered := s.entered ++ [event]
      reports := s.reports ++ (s.eventQueue.filter (EventManager.overrides event state)).flatMap
        (rejections eventListeners .rejectedEventOverridden) } := by
  have hout : event ∉ s.eventQueue := fun hmem => hnew (h.pushed event hmem)
  have hkept : ∀ x, x ∈ s.eventQueue.filter (fun queued =>
      ! EventManager.overrides event state queued) ++ [event] ↔
      x ∈ s.eventQueue ∧ EventManager.overrides event state x = false ∨ x = event := by
    intro x
    rw [List.mem_append, List.mem_filter, List.mem_singleton, Bool.not_eq_true']
  refine h.answer _ (fun x => eventListeners.of x.triggerType) .rejected _ ?_
    (h.nodup.filter _) (fun x => ?_) (fun x hx => ?_) (fun x hx hgone => ?_)
    (fun x hx => ?_) hlisteners rfl (fun _ hx => hx) (fun hkind => nomatch hkind)
  · rw [List.nodup_append_comm, List.singleton_append, List.nodup_cons]
    exact ⟨fun hmem => hout (List.mem_of_mem_filter hmem), h.nodup.filter _⟩
  · rw [hkept, List.mem_filter, List.mem_cons]
    constructor
    · rintro ((⟨hx, -⟩ | rfl) | ⟨hx, -⟩ | hx)
      · exact .inr (h.pushed x hx)
      · exact .inl rfl
      · exact .inr (h.pushed x hx)
      · exact .inr hx
    · rintro (rfl | hx)
      · exact .inl (.inr rfl)
      · exact .inr (.inr hx)
  · obtain ⟨hx, -⟩ | rfl := (hkept x).mp hx
    · exact .inl hx
    · exact .inr hnew
  · rw [hkept, not_or, not_and, Bool.not_eq_false] at hgone
    exact List.mem_filter.mpr ⟨hx, hgone.1 hx⟩
  · obtain ⟨hqueued, hoverridden⟩ := List.mem_filter.mp hx
    refine ⟨fun hmem => ?_, .inl hqueued⟩
    obtain ⟨-, hnot⟩ | heq := (hkept x).mp hmem
    · cases hoverridden.symm.trans hnot
    · exact hout (heq ▸ hqueued)

/-- The event is queued alone, and its command is issued. -/
theorem issued (h : Told eventListeners s) (hnew : event ∉ s.pushed) (hempty : s.eventQueue = [])
    (commands : List Command) (wakeLock : Bool) :
    Told eventListeners { s with
      pushed := event :: s.pushed
      eventQueue := [event]
      entered := s.entered ++ [event]
      commands := commands
      issued := s.issued ++ [event]
      wakeLock := wakeLock } := by
  refine h.answer [] (fun _ => []) .rejected .rejectedEventOverridden
    (List.nodup_singleton event) List.nodup_nil (fun x => ?_)
    (fun x hx => ?_) (fun x hx => ?_) nofun nofun (List.append_nil _).symm (fun c hc => ?_)
    (fun hkind => nomatch hkind)
  · simp
  · rw [List.mem_singleton.mp hx]
    exact .inr hnew
  · simp [hempty] at hx
  · exact List.mem_append_left _ hc

theorem push (h : Told eventListeners s) {machineNames : Option (List String)} {available : Bool}
    (hfresh : event.id ∉ s.pushed.map Event.id)
    (hok : AnswersEach eventListeners s (.push event machineNames available)) :
    Told eventListeners ({ s with pushed := event :: s.pushed }.pushEvent eventListeners event
      machineNames available) := by
  have hnew : event ∉ s.pushed := fun hmem => hfresh (List.mem_map_of_mem hmem)
  have hlisteners : ∀ rejected ∈ s.rejectedBy event machineNames available,
      ∀ listener ∈ eventListeners.of rejected.triggerType,
      (eventListeners.of rejected.triggerType).count listener = 1 :=
    fun rejected hrejected listener hlistener =>
      List.count_eq_one_of_mem (hok rejected hrejected) hlistener
  obtain ⟨hreject, status, heq⟩ | ⟨first, rest, hqueue, hvalid, heq⟩ |
    ⟨hqueue, -, -, heq⟩ := EventManager.pushEvent_cases eventListeners
      { s with pushed := event :: s.pushed } event machineNames available
  · rw [EventManager.rejectedBy_of_rejects (s := s) hreject] at hlisteners
    rw [heq]
    exact h.rejected status hnew (List.forall_mem_singleton.mp hlisteners)
  · rw [EventManager.rejectedBy_of_queued (s := s) hvalid hqueue] at hlisteners
    rw [heq]
    exact h.overriding first.triggeredState hnew hlisteners
  · rw [heq]
    exact h.issued hnew hqueue _ _

theorem complete (h : Told eventListeners s) (hshaped : Shaped s) {n : Nat} {command : Command}
    (status : EventStatus) (hcommand : s.commands[n]? = some command)
    (hok : s.AnswersLeading eventListeners) :
    Told eventListeners ((s.completed n).processedEventHandler eventListeners status) := by
  obtain ⟨rest, hqueue, -⟩ := hshaped.completed hcommand
  obtain ⟨succeed, status', hsucceed, heq⟩ := EventManager.processedEventHandler_cons
    eventListeners (s := s.completed n) status hqueue
  have hhead : s.eventQueue.head? = some command.event := by rw [hqueue]; rfl
  have hsplit := leading_append_remaining command.event s.eventQueue
  have hnodup := h.nodup
  rw [← hsplit] at hnodup
  obtain ⟨hleading, hremaining, hdisjoint⟩ := List.nodup_append.mp hnodup
  have hmem : ∀ x, x ∈ s.eventQueue ↔
      x ∈ leading command.event s.eventQueue ∨ x ∈ remaining command.event s.eventQueue := by
    intro x
    rw [← List.mem_append, hsplit]
  have hanswers := hok command.event (by rw [hhead]; exact List.mem_singleton_self _)
  rw [heq]
  refine h.answer _ (fun _ => eventListeners.of command.event.triggerType) (.processed succeed) _
    hremaining hleading (fun x => ?_) (fun x hx => .inl ((hmem x).mpr (.inr hx)))
    (fun x hx hgone => ((hmem x).mp hx).resolve_right hgone)
    (fun x hx => ⟨fun hx' => hdisjoint x hx x hx' rfl, .inl ((hmem x).mpr (.inl hx))⟩)
    (fun x hx => (hanswers x hx).1) rfl (fun c hc => List.mem_append_left _ hc)
    (fun hsuccess x hx => ?_)
  · constructor
    · rintro (hx | hx | hx)
      · exact h.pushed x ((hmem x).mpr (.inr hx))
      · exact h.pushed x ((hmem x).mpr (.inl hx))
      · exact hx
    · exact fun hx => .inr (.inr hx)
  · -- the first event's command is the last one issued
    obtain rfl : succeed = true := by simpa using hsuccess
    refine ⟨command.event, List.mem_of_getLast? (hshaped.started _ hhead),
      (triggeredState_of_mem_leading hx).symm, ((hanswers x hx).2 (hsucceed rfl)).symm⟩

/-- What one step preserves. -/
theorem step {e : Step} (h : Told eventListeners s) (hshaped : Shaped s)
    (hok : AnswersEach eventListeners s e) (hstep : step eventListeners s e = some s') :
    Told eventListeners s' := by
  obtain ⟨event, machineNames, available, rfl, hfresh, rfl⟩ |
    ⟨n, command, status, releases, hcommand, hcause, rfl⟩ | ⟨n, command, hcommand, -, rfl⟩ |
    ⟨-, rfl⟩ := step_cases hstep
  · exact h.push hfresh hok
  · refine (h.complete hshaped status hcommand ?_).of_eq rfl rfl rfl rfl
    obtain hack | ⟨succeed, rfl, hresume⟩ := hcause
    · cases e with
      | slaveAck => exact hok
      | _ => cases hack
    · obtain ⟨rfl, hother⟩ | hanswers := hok
      · exact absurd (hresume rfl) (hother command (by simp [hcommand]))
      · exact hanswers
  · exact h.of_eq rfl rfl rfl rfl
  · exact h.of_eq rfl rfl rfl rfl

theorem of_reachable
    (h : Reachable (PowerRef.step eventListeners) (AnswersEach eventListeners) .new s) :
    Told eventListeners s := by
  have hboth : Shaped s ∧ Told eventListeners s := by
    apply h.invariant ⟨Shaped.new, Told.new⟩
    rintro s e s' hok hstep ⟨hshaped, htold⟩
    exact ⟨hshaped.step hstep, htold.step hshaped hok hstep⟩
  exact hboth.2

end Told

/-- Where completions answer events of one machine with the same listeners, every event is answered
once, truthfully and to its listeners. -/
theorem answered_of_answersEach
    (h : Reachable (step eventListeners) (AnswersEach eventListeners) .new s) :
    Answered eventListeners s :=
  (Told.of_reachable h).answered

namespace Example

/-- One listener for all events and one for those of SMS triggers. -/
def listeners : Listeners
  | .unknown => [1]
  | .sms => [2]
  | _ => []

end Example

/-- Two SMS events for a RESUME of the same machine. -/
theorem answered_of_answersEach_sms : ∃ s : EventManager,
    s.reports.map (fun report => (report.listener, report.event.id)) =
      [(1, 1), (2, 1), (1, 2), (2, 2)] ∧ Answered Example.listeners s := by
  obtain ⟨s, hs, hreports⟩ := exists_reachable_of_run (step Example.listeners)
    (AnswersEach Example.listeners) .new
    (fun s : EventManager => s.reports.map fun report => (report.listener, report.event.id))
    [(1, 1), (2, 1), (1, 2), (2, 2)]
    [.push ⟨1, .resume, "A", .sms⟩ none true, .push ⟨2, .resume, "A", .sms⟩ none true,
      .callback 0 true] (by decide)
  exact ⟨s, hreports, answered_of_answersEach hs⟩

/-- A RESUME of machine B behind one of machine A: no command says B. -/
theorem not_answered_other_machine : ¬ ∀ (eventListeners : Listeners) (s : EventManager),
    Reachable (step eventListeners) anyStep .new s → Answered eventListeners s := by
  intro h
  obtain ⟨s, hs, hstate⟩ := exists_reachable_of_run (step Example.listeners) anyStep .new
    (fun s : EventManager => (s.issued.map Event.machineName,
      decide (∃ report ∈ s.reports, report.answer = .processed true ∧
        report.event.machineName = "B"))) (["A"], true)
    [.push ⟨1, .resume, "A", .sms⟩ none true, .push ⟨2, .resume, "B", .sms⟩ none true,
      .callback 0 true] (by decide)
  obtain ⟨hissued, hreport⟩ := Prod.ext_iff.mp hstate
  obtain ⟨report, hmem, hsuccess, hmachine⟩ := of_decide_eq_true hreport
  obtain ⟨command, hcommand, -, hname⟩ := (h _ s hs).truthful report hmem hsuccess
  have hmachines : s.issued.map Event.machineName = ["A"] := hissued
  have hA : command.machineName ∈ ["A"] := hmachines ▸ List.mem_map_of_mem hcommand
  rw [hname, hmachine] at hA
  exact absurd hA (by decide)

end PowerRef

end SatComm
