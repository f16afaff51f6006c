import SatComm.PowerRef.Steps

/-!
# The wake lock

The lock is taken with the first event and released with the last one. A RESUME whose callback says
success releases it once more, after it has left the lock of the queue: where another event is in
the queue by then, it is worked on without the wake lock. Where the queue is empty whenever such a
release comes, the lock is held exactly while there are events.
-/

namespace SatComm

namespace PowerRef

open Runs

variable {eventListeners : Listeners} {s s' : EventManager}

/-- The lock covers the events of the queue. -/
structure Covered (s : EventManager) : Prop where
  held : s.eventQueue ≠ [] → s.wakeLock = true
  released : s.eventQueue = [] → s.wakeLock = false

/-- A RESUME callback that comes to its own release finds an empty queue. -/
def ReleasesEmpty (s : EventManager) : Step → Prop
  | .release => s.eventQueue = []
  | .push .. | .callback .. | .slaveAck .. => True

instance (s : EventManager) : DecidablePred (ReleasesEmpty s)
  | .release => inferInstanceAs (Decidable (_ = _))
  | .push .. | .callback .. | .slaveAck .. => inferInstanceAs (Decidable True)

namespace Covered

theorem new : Covered .new := ⟨fun h => absurd rfl h, fun _ => rfl⟩

theorem of_eq (h : Covered s) (hqueue : s'.eventQueue = s.eventQueue)
    (hlock : s'.wakeLock = s.wakeLock) : Covered s' := by
  obtain ⟨hheld, hreleased⟩ := h
  constructor
  · rwa [hqueue, hlock]
  · rwa [hqueue, hlock]

theorem push (h : Covered s) (event : Event) (machineNames : Option (List String))
    (available : Bool) : Covered (s.pushEvent eventListeners event machineNames available) := by
  obtain ⟨-, status, heq⟩ | ⟨first, rest, hqueue, -, heq⟩ | ⟨-, -, -, heq⟩ :=
    EventManager.pushEvent_cases eventListeners s event machineNames available
  · rw [heq]
    exact h.of_eq rfl rfl
  · rw [heq]
    refine ⟨fun _ => h.held (by simp [hqueue]), fun hnil => ?_⟩
    simp at hnil
  · rw [heq]
    exact ⟨fun _ => rfl, nofun⟩

theorem complete (h : Covered s) (status : EventStatus) :
    Covered (s.processedEventHandler eventListeners status) := by
  by_cases hqueue : s.eventQueue = []
  · rw [EventManager.processedEventHandler_nil status hqueue]
    exact h
  · obtain ⟨first, rest, hcons⟩ := List.exists_cons_of_ne_nil hqueue
    obtain ⟨succeed, status', -, heq⟩ :=
      EventManager.processedEventHandler_cons eventListeners status hcons
    rw [heq]
    refine ⟨fun hmore => ?_, fun hnil => ?_⟩
    · exact (if_neg hmore).trans (h.held hqueue)
    · exact if_pos hnil

/-- What one step preserves. -/
theorem step {e : Step} (h : Covered s) (hok : ReleasesEmpty s e)
    (hstep : step eventListeners s e = some s') : Covered s' := by
  obtain ⟨event, machineNames, available, -, -, rfl⟩ |
    ⟨n, command, status, releases, -, -, rfl⟩ | ⟨n, command, -, -, rfl⟩ | ⟨rfl, rfl⟩ :=
    step_cases hstep
  · have hpushed : Covered { s with pushed := event :: s.pushed } := h.of_eq rfl rfl
    exact hpushed.push event machineNames available
  · have hcompleted : Covered (s.completed n) := h.of_eq rfl rfl
    exact (hcompleted.complete status).of_eq rfl rfl
  · exact h.of_eq rfl rfl
  · exact ⟨fun hmore => absurd hok hmore, fun _ => rfl⟩

end Covered

/-- While no RESUME callback releases the lock under another event, it is held exactly while there
are events. -/
theorem covered_of_releasesEmpty
    (h : Reachable (step eventListeners) ReleasesEmpty .new s) : Covered s :=
  h.invariant Covered.new fun _ _ _ hok hstep hs => hs.step hok hstep

theorem covered_of_releasesEmpty_resume :
    ∃ s : EventManager, (s.eventQueue = [] ∧ s.releases = 0) ∧ Covered s := by
  obtain ⟨s, hs, hstate⟩ := exists_reachable_of_run (step fun _ => []) ReleasesEmpty .new
    (fun s : EventManager => (s.eventQueue, s.releases)) ([], 0)
    [.push ⟨1, .resume, "A", .sms⟩ none true, .callback 0 true, .release] (by decide)
  exact ⟨s, Prod.ext_iff.mp hstate, covered_of_releasesEmpty hs⟩

/-- The RESUME's release comes after the SUSPEND behind it has got its command. -/
theorem not_covered_suspend : ¬ ∀ (eventListeners : Listeners) (s : EventManager),
    Reachable (step eventListeners) anyStep .new s → Covered s := by
  intro h
  obtain ⟨s, hs, hstate⟩ := exists_reachable_of_run (step fun _ => []) anyStep .new
    (fun s : EventManager => (decide (s.eventQueue = []), s.wakeLock)) (false, false)
    [.push ⟨1, .resume, "A", .sms⟩ none true, .push ⟨2, .suspend, "A", .gpio⟩ none true,
      .callback 0 true, .release] (by decide)
  obtain ⟨hqueue, hlock⟩ := Prod.ext_iff.mp hstate
  cases hlock.symm.trans ((h _ s hs).held (of_decide_eq_false hqueue))

end PowerRef

end SatComm
