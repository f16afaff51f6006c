import SatComm.PowerRef.Steps

/-!
# The latest request wins

The queue is one block of the state in progress and at most one block of another state, which is the
one of the latest event. Its first event has the one command that is outstanding. Where nothing is
left to do, the last command carried the state of the last event that came into the queue.
-/

namespace SatComm

namespace PowerRef

open Power (TcuActivityState)

open Runs

variable {eventListeners : Listeners} {s s' : EventManager} {event first : Event}

/-- The queue, the outstanding commands and the last command issued. -/
structure LatestWins (s : EventManager) : Prop where
  blocks : ∃ S T : TcuActivityState, T ≠ S ∧ ∃ xs ys, s.eventQueue = xs ++ ys ∧
    (∀ x ∈ xs, x.triggeredState = S) ∧ ∀ y ∈ ys, y.triggeredState = T
  outstanding : s.commands.map Command.event = s.eventQueue.head?.toList
  latest : s.eventQueue = [] → s.issued.getLast?.map Event.triggeredState =
    s.entered.getLast?.map Event.triggeredState

/-- The invariant. -/
structure Shaped (s : EventManager) : Prop where
  rest : ∀ first, s.eventQueue.head? = some first → ∃ T, T ≠ first.triggeredState ∧
    ∀ y ∈ remaining first s.eventQueue, y.triggeredState = T
  outstanding : s.commands.map Command.event = s.eventQueue.head?.toList
  started : ∀ first, s.eventQueue.head? = some first → s.issued.getLast? = some first
  entered : s.eventQueue ≠ [] → s.entered.getLast? = s.eventQueue.getLast?
  latest : s.eventQueue = [] → s.issued.getLast?.map Event.triggeredState =
    s.entered.getLast?.map Event.triggeredState

theorem remaining_append {xs ys : List Event}
    (h : ∀ x ∈ xs, x.triggeredState = first.triggeredState) :
    remaining first (xs ++ ys) = remaining first ys :=
  List.dropWhile_append_of_pos (by simpa using h)

theorem remaining_eq_nil {queue : List Event} :
    remaining first queue = [] ↔ ∀ x ∈ queue, x.triggeredState = first.triggeredState := by
  simp [remaining, List.dropWhile_eq_nil_iff]

namespace Shaped

theorem new : Shaped .new := ⟨nofun, rfl, nofun, fun h => absurd rfl h, fun _ => rfl⟩

theorem latestWins (h : Shaped s) : LatestWins s := by
  refine ⟨?_, h.outstanding, h.latest⟩
  cases hqueue : s.eventQueue with
  | nil => exact ⟨.resume, .suspend, nofun, [], [], rfl, nofun, nofun⟩
  | cons first rest =>
    obtain ⟨T, hne, hrest⟩ := h.rest first (by simp [hqueue])
    rw [hqueue] at hrest
    exact ⟨first.triggeredState, T, hne, leading first (first :: rest),
      remaining first (first :: rest), (leading_append_remaining ..).symm,
      fun x hx => triggeredState_of_mem_leading hx, hrest⟩

/-- Only what these fields say matters. -/
theorem of_eq (h : Shaped s) (hqueue : s'.eventQueue = s.eventQueue)
    (hcommands : s'.commands.map Command.event = s.commands.map Command.event)
    (hissued : s'.issued = s.issued) (hentered : s'.entered = s.entered) : Shaped s' := by
  obtain ⟨hrest, houtstanding, hstarted, hentered', hlatest⟩ := h
  constructor
  · rwa [hqueue]
  · rw [hcommands, hqueue, houtstanding]
  · rwa [hqueue, hissued]
  · rwa [hqueue, hentered]
  · rwa [hqueue, hissued, hentered]

/-- What an event does not override stays in its blocks, and the event goes to the last one. -/
theorem remaining_enqueue {queue : List Event} {T : TcuActivityState} (event : Event)
    (hne : T ≠ first.triggeredState)
    (hrest : ∀ y ∈ remaining first queue, y.triggeredState = T) :
    ∃ T', T' ≠ first.triggeredState ∧ ∀ y ∈ remaining first
      (queue.filter (fun queued => ! EventManager.overrides event first.triggeredState queued) ++
        [event]), y.triggeredState = T' := by
  have hleading : ∀ x ∈ (leading first queue).filter fun queued =>
      ! EventManager.overrides event first.triggeredState queued,
      x.triggeredState = first.triggeredState :=
    fun x hx => triggeredState_of_mem_leading (List.mem_of_mem_filter hx)
  have hsplit := leading_append_remaining first queue
  generalize remaining first queue = rest at hrest hsplit
  rw [← hsplit, List.filter_append, List.append_assoc, remaining_append hleading]
  by_cases hprogress : event.triggeredState = first.triggeredState
  · -- all of the other state is overridden
    have hnone : rest.filter (fun queued =>
        ! EventManager.overrides event first.triggeredState queued) = [] := by
      rw [List.filter_eq_nil_iff]
      intro y hy
      simp [EventManager.overrides, hprogress, hrest y hy, hne]
    rw [hnone, remaining_eq_nil.mpr (by simpa using hprogress)]
    exact ⟨T, hne, nofun⟩
  · refine ⟨event.triggeredState, hprogress, fun y hy => ?_⟩
    obtain hy | hy := List.mem_append.mp (List.dropWhile_subset _ hy)
    · obtain ⟨hy, hkept⟩ := List.mem_filter.mp hy
      have hsame : T = event.triggeredState := by
        simpa [EventManager.overrides, hrest y hy, hne] using hkept
      exact (hrest y hy).trans hsame
    · rw [List.mem_singleton.mp hy]

/-- The first event stays the first one. -/
theorem head?_enqueue {queue : List Event} (event : Event) (h : queue.head? = some first) :
    (queue.filter (fun queued => ! EventManager.overrides event first.triggeredState queued) ++
      [event]).head? = some first := by
  obtain ⟨rest, rfl⟩ := List.head?_eq_some_iff.mp h
  rw [List.filter_cons_of_pos (by simp [EventManager.overrides])]
  rfl

theorem push (h : Shaped s) (event : Event) (machineNames : Option (List String))
    (available : Bool) : Shaped (s.pushEvent eventListeners event machineNames available) := by
  obtain ⟨-, status, heq⟩ | ⟨first, rest, hqueue, -, heq⟩ | ⟨hqueue, -, -, heq⟩ :=
    EventManager.pushEvent_cases eventListeners s event machineNames available
  · rw [heq]
    exact h.of_eq rfl rfl rfl rfl
  · have hfirst : s.eventQueue.head? = some first := by rw [hqueue]; rfl
    obtain ⟨T, hne, hrest⟩ := h.rest first hfirst
    have hhead := head?_enqueue event hfirst
    rw [heq]
    refine ⟨fun first' hfirst' => ?_, ?_, fun first' hfirst' => ?_, fun _ => ?_, fun hnil => ?_⟩
    · obtain rfl : first = first' := Option.some.inj (hhead.symm.trans hfirst')
      exact remaining_enqueue event hne hrest
    · exact h.outstanding.trans (by rw [hhead, hfirst])
    · exact h.started first' (hfirst.trans (hhead.symm.trans hfirst'))
    · simp
    · simp at hnil
  · rw [heq]
    have hcommands : s.commands = [] := by
      simpa [hqueue] using h.outstanding
    refine ⟨fun first hfirst => ?_, ?_, fun first hfirst => ?_, fun _ => ?_, nofun⟩
    · obtain rfl : event = first := Option.some.inj hfirst
      rw [remaining_eq_nil.mpr (by simp)]
      cases hstate : event.triggeredState with
      | resume => exact ⟨.suspend, nofun, nofun⟩
      | _ => exact ⟨.resume, nofun, nofun⟩
    · simp [hcommands]
    · simpa using hfirst
    · simp

/-- The command that completes is the only one, and it is that of the first event. -/
theorem completed (h : Shaped s) {n : Nat} {command : Command}
    (hcommand : s.commands[n]? = some command) :
    ∃ rest, s.eventQueue = command.event :: rest ∧ (s.completed n).commands = [] := by
  have hmap := congrArg (fun l => l[n]?) h.outstanding
  simp only [List.getElem?_map, hcommand, Option.map_some] at hmap
  cases hqueue : s.eventQueue with
  | nil => simp [hqueue] at hmap
  | cons first rest =>
    simp only [hqueue, List.head?_cons, Option.toList_some] at hmap
    have hlength : s.commands.length = 1 := by
      simpa [hqueue] using congrArg List.length h.outstanding
    have hn : n = 0 := by
      have hlt := (List.getElem?_eq_some_iff.mp hcommand).1
      omega
    subst hn
    simp only [List.getElem?_cons_zero, Option.some.injEq] at hmap
    refine ⟨rest, by rw [hmap], ?_⟩
    rw [EventManager.completed, ← List.length_eq_zero_iff, List.length_eraseIdx_of_lt (by omega),
      hlength]

/-- The next block, if any, comes to the front with a command of its own. -/
theorem next (h : Shaped s) (hfirst : s.eventQueue.head? = some first)
    (hqueue : s'.eventQueue = remaining first s.eventQueue)
    (hcommands : s'.commands.map Command.event = s'.eventQueue.head?.toList)
    (hissued : s'.issued = s.issued ++ s'.eventQueue.head?.toList)
    (hentered : s'.entered = s.entered) : Shaped s' := by
  obtain ⟨T, hne, hrest⟩ := h.rest first hfirst
  have hsplit := leading_append_remaining first s.eventQueue
  have hnonempty : s.eventQueue ≠ [] := by
    rintro hnil
    simp [hnil] at hfirst
  rw [← hqueue] at hrest hsplit
  refine ⟨fun next hnext => ?_, hcommands, fun next hnext => ?_, fun hmore => ?_, fun hnil => ?_⟩
  · -- it is the last block
    have hstate : next.triggeredState = T := hrest next (List.mem_of_head? hnext)
    refine ⟨first.triggeredState, hstate ▸ hne.symm, ?_⟩
    rw [remaining_eq_nil.mpr fun y hy => (hrest y hy).trans hstate.symm]
    exact nofun
  · simp [hissued, hnext]
  · rw [hentered, h.entered hnonempty, ← hsplit, List.getLast?_append_of_ne_nil _ hmore]
  · have hsame := remaining_eq_nil.mp (hqueue ▸ hnil)
    obtain ⟨last, hlast⟩ := Option.isSome_iff_exists.mp (List.getLast?_isSome.mpr hnonempty)
    rw [hissued, hnil, hentered, h.entered hnonempty, hlast, List.head?_nil, Option.toList_none,
      List.append_nil, h.started first hfirst, Option.map_some, Option.map_some,
      hsame last (List.mem_of_getLast? hlast)]

theorem complete (h : Shaped s) {n : Nat} {command : Command} (status : EventStatus)
    (hcommand : s.commands[n]? = some command) :
    Shaped ((s.completed n).processedEventHandler eventListeners status) := by
  obtain ⟨rest, hqueue, hnone⟩ := h.completed hcommand
  obtain ⟨succeed, status', -, heq⟩ := EventManager.processedEventHandler_cons
    eventListeners (s := s.completed n) status hqueue
  have hfirst : s.eventQueue.head? = some command.event := by rw [hqueue]; rfl
  rw [heq]
  apply h.next hfirst rfl
  · simp [hnone, Function.comp_def]
  · rfl
  · rfl

/-- What one step preserves. -/
theorem step {e : Step} (h : Shaped s) (hstep : step eventListeners s e = some s') : Shaped s' := by
  obtain ⟨event, machineNames, available, -, -, rfl⟩ |
    ⟨n, command, status, releases, hcommand, -, rfl⟩ | ⟨n, command, hcommand, -, rfl⟩ | ⟨-, rfl⟩ :=
    step_cases hstep
  · have hpushed : Shaped { s with pushed := event :: s.pushed } := h.of_eq rfl rfl rfl rfl
    exact hpushed.push event machineNames available
  · exact (h.complete status hcommand).of_eq rfl rfl rfl rfl
  · refine h.of_eq rfl ?_ rfl rfl
    obtain ⟨hn, rfl⟩ := List.getElem?_eq_some_iff.mp hcommand
    have hn' : n < (s.commands.map Command.event).length := by simpa using hn
    have hsame : s.commands[n].event = (s.commands.map Command.event)[n] :=
      (List.getElem_map ..).symm
    apply List.map_set.trans
    exact (congrArg _ hsame).trans (List.set_getElem_self hn')
  · exact h.of_eq rfl rfl rfl rfl

theorem of_reachable {ok : EventManager → Step → Prop}
    (h : Reachable (PowerRef.step eventListeners) ok .new s) : Shaped s :=
  h.invariant Shaped.new fun _ _ _ _ hstep hs => hs.step hstep

end Shaped

/-- In every order of pushes and completions, the latest request wins. -/
theorem latestWins_of_reachable (h : Reachable (step eventListeners) anyStep .new s) :
    LatestWins s :=
  (Shaped.of_reachable h).latestWins

/-- A RESUME with a SUSPEND behind it. -/
theorem latestWins_of_reachable_suspend :
    ∃ s : EventManager, (s.eventQueue = [] ∧ s.issued.map Event.id = [1, 2]) ∧ LatestWins s := by
  obtain ⟨s, hs, hstate⟩ := exists_reachable_of_run (step fun _ => []) anyStep .new
    (fun s : EventManager => (s.eventQueue, s.issued.map Event.id)) ([], [1, 2])
    [.push ⟨1, .resume, "A", .sms⟩ none true, .push ⟨2, .suspend, "A", .gpio⟩ none true,
      .callback 0 true, .callback 0 true, .slaveAck 0 .success] (by decide)
  exact ⟨s, Prod.ext_iff.mp hstate, latestWins_of_reachable hs⟩

end PowerRef

end SatComm
