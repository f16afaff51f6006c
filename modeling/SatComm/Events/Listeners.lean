import SatComm.Runs.Maps
import SatComm.Runs.Refusals

/-!
# The listeners of a client

A client keeps a set of weak pointers to listeners for every filter, and tells the server the
filters of its sets whenever a set is new or gone. Given a list of filters it takes them one after
the other, and stops at the first that is not a success: at a filter that the listener is registered
for already, and at one that has no set when a listener is taken away.
-/

namespace SatComm

namespace Events

open Assoc Runs

inductive Status
  | success | failed | already | noSuch
deriving DecidableEq, Repr

/-- The listeners are named by their control blocks. Every `updateFilter` succeeds. -/
structure EventManager (ι : Type) where
  listeners : Map String (Finset ι)
  /-- The filters that were last sent to the server. -/
  sent : List String
  keys_sent : ∀ filter, (listeners.get? filter).isSome → filter ∈ sent

namespace EventManager

variable {ι : Type} [DecidableEq ι]

def new : EventManager ι where
  listeners := .empty
  sent := []
  keys_sent _ h := by cases h

/-- The manager with these listeners once it has sent their filters. -/
def updateFilters (listeners : Map String (Finset ι)) : EventManager ι where
  listeners := listeners
  sent := keys listeners.pairs
  keys_sent _ := Map.mem_keys.mpr

/-- The manager with another set for a filter that has one. -/
def put (m : EventManager ι) (filter : String) (set : Finset ι)
    (h : (m.listeners.get? filter).isSome) : EventManager ι where
  listeners := m.listeners.set filter set
  sent := m.sent
  keys_sent filter' h' := by
    rw [Map.get?_set] at h'
    split_ifs at h' with heq
    · exact m.keys_sent filter' (heq ▸ h)
    · exact m.keys_sent filter' h'

variable (live : ι → Bool) (listener : ι)

/-- `registerListener` for one filter. -/
def registerListener (m : EventManager ι) (filter : String) : Status × EventManager ι :=
  if live listener then
    match h : m.listeners.get? filter with
    | none => (.success, updateFilters (m.listeners.set filter {listener}))
    | some set =>
      if listener ∈ set then (.already, m)
      else (.success, m.put filter (insert listener set) (by rw [h]; rfl))
  else (.failed, m)

/-- `deregisterListener` for one filter. -/
def deregisterListener (m : EventManager ι) (filter : String) : Status × EventManager ι :=
  match h : m.listeners.get? filter with
  | none => (.noSuch, m)
  | some set =>
    if live listener then
      if listener ∈ set then
        if (set.erase listener).card = 0 then
          (.success, updateFilters (m.listeners.erase filter))
        else (.success, m.put filter (set.erase listener) (by rw [h]; rfl))
      else (.success, m)
    else (.failed, m)

/-- `registerListener` for a list of filters. -/
def registerListeners (m : EventManager ι) (filters : List String) : Status × EventManager ι :=
  untilRefused (registerListener live listener) .success m filters

/-- `deregisterListener` for a list of filters. -/
def deregisterListeners (m : EventManager ι) (filters : List String) : Status × EventManager ι :=
  untilRefused (deregisterListener live listener) .success m filters

/-- The listener is in the set of the filter. -/
def Registered (m : EventManager ι) (listener : ι) (filter : String) : Prop :=
  ∃ set ∈ m.listeners.get? filter, listener ∈ set

instance (m : EventManager ι) (listener : ι) (filter : String) :
    Decidable (m.Registered listener filter) :=
  inferInstanceAs (Decidable (∃ set ∈ m.listeners.get? filter, listener ∈ set))

/-- The filter has no set. -/
def Unknown (m : EventManager ι) (filter : String) : Prop := m.listeners.get? filter = none

/-- The listener is the only one of the filter. -/
def Sole (m : EventManager ι) (listener : ι) (filter : String) : Prop :=
  m.listeners.get? filter = some {listener}

instance (m : EventManager ι) (filter : String) : Decidable (m.Unknown filter) :=
  inferInstanceAs (Decidable (m.listeners.get? filter = none))

instance (m : EventManager ι) (listener : ι) (filter : String) :
    Decidable (m.Sole listener filter) :=
  inferInstanceAs (Decidable (m.listeners.get? filter = some {listener}))

/-! ## What a registration does -/

section

variable {m : EventManager ι} {live : ι → Bool} {listener : ι} {filter : String}

omit [DecidableEq ι] in
/-- Filters with a listener have been sent. -/
theorem sent_of_registered (h : m.Registered listener filter) : filter ∈ m.sent := by
  obtain ⟨set, hset, -⟩ := h
  apply m.keys_sent
  rw [Option.mem_def.mp hset]
  rfl

omit [DecidableEq ι] in
theorem registered_iff_of_listeners {m' : EventManager ι} (set : Finset ι)
    (h : m'.listeners = m.listeners.set filter set) (listener' : ι) (filter' : String) :
    m'.Registered listener' filter' ↔
      if filter' = filter then listener' ∈ set else m.Registered listener' filter' := by
  rw [Registered, h, Map.get?_set, Registered]
  split_ifs <;> simp

theorem registerListener_of_registered (hlive : live listener)
    (h : m.Registered listener filter) :
    m.registerListener live listener filter = (.already, m) := by
  obtain ⟨set, hset, hmem⟩ := h
  unfold registerListener
  rw [if_pos hlive]
  split
  · rename_i hnone
    rw [Option.mem_def, hnone] at hset
    cases hset
  · rename_i set' hset'
    obtain rfl := Option.some.inj (hset'.symm.trans hset)
    rw [if_pos hmem]

theorem registerListener_of_not_registered (hlive : live listener)
    (h : ¬m.Registered listener filter) :
    (m.registerListener live listener filter).1 = .success ∧
      ∀ listener' filter',
        (m.registerListener live listener filter).2.Registered listener' filter' ↔
          m.Registered listener' filter' ∨ (listener' = listener ∧ filter' = filter) := by
  unfold registerListener
  rw [if_pos hlive]
  split
  · rename_i hnone
    refine ⟨rfl, fun listener' filter' => ?_⟩
    rw [registered_iff_of_listeners {listener} rfl, Finset.mem_singleton]
    split_ifs with heq
    · have hnot : ¬m.Registered listener' filter' := by
        rintro ⟨set, hset, -⟩
        rw [heq, Option.mem_def, hnone] at hset
        cases hset
      simp [heq, heq ▸ hnot]
    · simp [heq]
  · rename_i set hset
    have hmem : listener ∉ set := fun hmem => h ⟨set, hset, hmem⟩
    rw [if_neg hmem]
    refine ⟨rfl, fun listener' filter' => ?_⟩
    rw [registered_iff_of_listeners (insert listener set) rfl, Finset.mem_insert]
    split_ifs with heq
    · have hset' : m.Registered listener' filter' ↔ listener' ∈ set := by
        rw [Registered, heq, hset]
        simp
      rw [hset', or_comm]
      simp [heq]
    · simp [heq]

/-- A registration is refused just where it is there already. -/
theorem registerListener_ne_success (hlive : live listener) :
    (m.registerListener live listener filter).1 ≠ .success ↔ m.Registered listener filter := by
  by_cases h : m.Registered listener filter
  · rw [registerListener_of_registered hlive h]
    simp [h]
  · simp [h, (registerListener_of_not_registered hlive h).1]

/-! ## What a deregistration does -/

theorem deregisterListener_of_unknown (h : m.Unknown filter) :
    m.deregisterListener live listener filter = (.noSuch, m) := by
  unfold deregisterListener
  split
  · rfl
  · rename_i set hset
    rw [Unknown, hset] at h
    cases h

/-- The sets lose the listener, and are gone where it was the only one. -/
theorem get?_deregisterListener (hlive : live listener) (h : ¬m.Unknown filter) :
    (m.deregisterListener live listener filter).1 = .success ∧
      ∀ filter', (m.deregisterListener live listener filter).2.listeners.get? filter' =
        if filter' = filter then
          if m.Sole listener filter then none
          else (m.listeners.get? filter).map (·.erase listener)
        else m.listeners.get? filter' := by
  unfold deregisterListener
  split
  · rename_i hnone
    exact absurd hnone h
  rename_i set hset
  rw [if_pos hlive]
  have hsole : m.Sole listener filter ↔ listener ∈ set ∧ (set.erase listener).card = 0 := by
    rw [Sole, hset, Option.some.injEq, Finset.card_eq_zero, Finset.erase_eq_empty_iff]
    constructor
    · rintro rfl
      exact ⟨Finset.mem_singleton_self _, .inr rfl⟩
    · rintro ⟨hmem, rfl | hset⟩
      · cases hmem
      · exact hset
  by_cases hmem : listener ∈ set
  · rw [if_pos hmem]
    by_cases hcard : (set.erase listener).card = 0
    · rw [if_pos hcard]
      refine ⟨rfl, fun filter' => ?_⟩
      rw [if_pos (hsole.mpr ⟨hmem, hcard⟩), updateFilters, Map.get?_erase]
    · rw [if_neg hcard]
      refine ⟨rfl, fun filter' => ?_⟩
      rw [if_neg fun h => hcard (hsole.mp h).2, put, Map.get?_set, hset, Option.map_some]
  · rw [if_neg hmem]
    refine ⟨rfl, fun filter' => ?_⟩
    rw [if_neg fun h => hmem (hsole.mp h).1, hset, Option.map_some, Finset.erase_eq_of_notMem hmem]
    split_ifs with heq
    · rw [heq, hset]
    · rfl

/-- A deregistration is refused just where the filter has no set. -/
theorem deregisterListener_ne_success (hlive : live listener) :
    (m.deregisterListener live listener filter).1 ≠ .success ↔ m.Unknown filter := by
  by_cases h : m.Unknown filter
  · rw [deregisterListener_of_unknown h]
    simp [h]
  · simp [h, (get?_deregisterListener hlive h).1]

theorem unknown_deregisterListener (hlive : live listener) (h : ¬m.Unknown filter)
    (filter' : String) :
    (m.deregisterListener live listener filter).2.Unknown filter' ↔
      m.Unknown filter' ∨ (filter' = filter ∧ m.Sole listener filter) := by
  rw [Unknown, (get?_deregisterListener hlive h).2, Unknown]
  split_ifs with heq hsole
  · simp [heq, hsole]
  · rw [Unknown] at h
    simp [heq, hsole, h]
  · simp [heq]

theorem sole_deregisterListener (hlive : live listener) (h : ¬m.Unknown filter)
    (filter' : String) :
    (m.deregisterListener live listener filter).2.Sole listener filter' ↔
      m.Sole listener filter' ∧ filter' ≠ filter := by
  have hsole : (m.deregisterListener live listener filter).2.Sole listener filter' ↔
      (m.deregisterListener live listener filter).2.listeners.get? filter' = some {listener} :=
    Iff.rfl
  rw [hsole, (get?_deregisterListener hlive h).2]
  split_ifs with heq hsole
  · simp [heq]
  · have hnot : (m.listeners.get? filter).map (·.erase listener) ≠ some {listener} := by
      intro hmap
      obtain ⟨set, -, heq⟩ := Option.map_eq_some_iff.mp hmap
      exact Finset.notMem_erase listener set (heq ▸ Finset.mem_singleton_self listener)
    simp [heq, hnot]
  · simp [heq, Sole]

theorem registered_deregisterListener (hlive : live listener) (h : ¬m.Unknown filter)
    (listener' : ι) (filter' : String) :
    (m.deregisterListener live listener filter).2.Registered listener' filter' ↔
      m.Registered listener' filter' ∧ ¬(listener' = listener ∧ filter' = filter) := by
  obtain ⟨set, hset⟩ := Option.ne_none_iff_exists'.mp h
  rw [Registered, (get?_deregisterListener hlive h).2, Registered]
  split_ifs with heq hsole
  · rw [Sole] at hsole
    simp [heq, hsole]
  · simp [heq, hset, and_comm]
  · simp [heq]

end

/-! ## Lists of filters -/

section

variable {live : ι → Bool} {listener : ι} (hlive : live listener)

include hlive

theorem does_registerListener :
    Does (registerListener live listener) .success (fun m filter => m.Registered listener filter)
      fun m front filter => m.Registered listener filter ∨ filter ∈ front where
  refused_nil m filter := by
    rw [registerListener_ne_success hlive]
    simp
  refused_cons m filter front filter' hok := by
    have h : ¬m.Registered listener filter := by
      rwa [← registerListener_ne_success hlive, not_ne_iff]
    rw [(registerListener_of_not_registered hlive h).2, List.mem_cons]
    tauto
  done m filter filter' hok := by
    have h : ¬m.Registered listener filter := by
      rwa [← registerListener_ne_success hlive, not_ne_iff]
    rw [(registerListener_of_not_registered hlive h).2]
    tauto
  same m filter hrefused := by
    have h := (registerListener_ne_success hlive).mp hrefused
    rw [registerListener_of_registered hlive h]
    exact ⟨rfl, h⟩

/-- Done is what the listener is not registered for. -/
theorem does_deregisterListener :
    Does (deregisterListener live listener) .success
      (fun m filter => ¬m.Registered listener filter)
      fun m front filter => m.Unknown filter ∨ (filter ∈ front ∧ m.Sole listener filter) where
  refused_nil m filter := by
    rw [deregisterListener_ne_success hlive]
    simp
  refused_cons m filter front filter' hok := by
    have h : ¬m.Unknown filter := by
      rwa [← deregisterListener_ne_success hlive, not_ne_iff]
    rw [unknown_deregisterListener hlive h, sole_deregisterListener hlive h, List.mem_cons]
    by_cases heq : filter' = filter
    · rw [heq]
      tauto
    · tauto
  done m filter filter' hok := by
    have h : ¬m.Unknown filter := by
      rwa [← deregisterListener_ne_success hlive, not_ne_iff]
    rw [registered_deregisterListener hlive h]
    tauto
  same m filter hrefused := by
    have h := (deregisterListener_ne_success hlive).mp hrefused
    rw [deregisterListener_of_unknown h]
    refine ⟨rfl, ?_⟩
    rintro ⟨set, hset, -⟩
    rw [Option.mem_def, h] at hset
    cases hset

end

/-- Only the registrations of the listener for the filters differ. -/
def Others (listener : ι) (filters : List String) (m m' : EventManager ι) : Prop :=
  ∀ listener' filter, ¬(listener' = listener ∧ filter ∈ filters) →
    (m'.Registered listener' filter ↔ m.Registered listener' filter)

section

variable {live : ι → Bool} {listener : ι} (m : EventManager ι) (filters : List String)

omit [DecidableEq ι] in
/-- What the steps for single filters leave alone, the loop leaves alone. -/
theorem others_untilRefused {step : EventManager ι → String → Status × EventManager ι}
    (hstep : ∀ m filter, Others listener [filter] m (step m filter).2) :
    Others listener filters m (untilRefused step .success m filters).2 := by
  apply untilRefused_invariant (fun m' => Others listener filters m m')
  · intro m' filter hfilter h listener' filter' hother
    rw [← h listener' filter' hother]
    apply hstep m' filter listener' filter'
    rintro ⟨hlistener, hfilter'⟩
    exact hother ⟨hlistener, List.mem_singleton.mp hfilter' ▸ hfilter⟩
  · exact fun _ _ _ => Iff.rfl

theorem others_registerListener (hlive : live listener) (filter : String) :
    Others listener [filter] m (m.registerListener live listener filter).2 := by
  intro listener' filter' hother
  rw [List.mem_singleton] at hother
  by_cases h : m.Registered listener filter
  · rw [registerListener_of_registered hlive h]
  · rw [(registerListener_of_not_registered hlive h).2]
    exact or_iff_left hother

theorem others_deregisterListener (hlive : live listener) (filter : String) :
    Others listener [filter] m (m.deregisterListener live listener filter).2 := by
  intro listener' filter' hother
  rw [List.mem_singleton] at hother
  by_cases h : m.Unknown filter
  · rw [deregisterListener_of_unknown h]
  · rw [registered_deregisterListener hlive h]
    exact and_iff_left hother

end

/-- The listener is registered for all the filters, or for none; nothing else has changed, and the
server has the filters of all live listeners. -/
structure Settled (registered : Prop) (live : ι → Bool) (listener : ι) (filters : List String)
    (m m' : EventManager ι) : Prop where
  asked : ∀ filter ∈ filters, (m'.Registered listener filter ↔ registered)
  others : Others listener filters m m'
  sent : ∀ listener' filter, live listener' → m'.Registered listener' filter → filter ∈ m'.sent

/-- Behind a filter that the listener is registered for, or that is repeated, are only such. -/
def RegistersUnbroken (m : EventManager ι) (listener : ι) (filters : List String) : Prop :=
  ∀ front filter back, filters = front ++ filter :: back →
    m.Registered listener filter ∨ filter ∈ front →
      ∀ filter' ∈ back, m.Registered listener filter' ∨ filter' ∈ front

/-- Behind a filter that has no set, or none but for the listener and is repeated, are only filters
that the listener is not registered for or that are repeated. -/
def DeregistersUnbroken (m : EventManager ι) (listener : ι) (filters : List String) : Prop :=
  ∀ front filter back, filters = front ++ filter :: back →
    m.Unknown filter ∨ (filter ∈ front ∧ m.Sole listener filter) →
      ∀ filter' ∈ back, ¬m.Registered listener filter' ∨ filter' ∈ front

/-- Just where no list is broken off before its end, the listener is registered for each filter
or for none. -/
theorem settled_iff (live : ι → Bool) (listener : ι) (hlive : live listener)
    (m : EventManager ι) (filters : List String) :
    (Settled True live listener filters m (m.registerListeners live listener filters).2 ↔
      m.RegistersUnbroken listener filters) ∧
    (Settled False live listener filters m (m.deregisterListeners live listener filters).2 ↔
      m.DeregistersUnbroken listener filters) := by
  constructor
  · constructor
    · intro h
      apply ((does_registerListener hlive).forall_done_iff m filters).mp
      exact fun filter hfilter => (h.asked filter hfilter).mpr trivial
    · intro h
      have hdone := ((does_registerListener hlive).forall_done_iff m filters).mpr h
      exact ⟨fun filter hfilter => iff_true_intro (hdone filter hfilter),
        others_untilRefused m filters fun m => m.others_registerListener hlive,
        fun _ _ _ => sent_of_registered⟩
  · constructor
    · intro h
      apply ((does_deregisterListener hlive).forall_done_iff m filters).mp
      exact fun filter hfilter => (h.asked filter hfilter).mp
    · intro h
      have hdone := ((does_deregisterListener hlive).forall_done_iff m filters).mpr h
      exact ⟨fun filter hfilter => iff_false_intro (hdone filter hfilter),
        others_untilRefused m filters fun m => m.others_deregisterListener hlive,
        fun _ _ _ => sent_of_registered⟩

/-- One listener, which is registered for `a`. -/
def known : EventManager Unit :=
  ((new : EventManager Unit).registerListener (fun _ => true) () "a").2

theorem settled_known :
    Settled True (fun _ => true) () ["b"] known
      (known.registerListeners (fun _ => true) () ["b"]).2 := by
  apply (settled_iff (fun _ => true) () rfl known ["b"]).1.mpr
  intro front filter back heq _ filter' hback
  have hlength := congrArg List.length heq
  rw [List.length_singleton, List.length_append, List.length_cons] at hlength
  have hpos := List.length_pos_of_mem hback
  omega

theorem not_settled_known :
    ¬Settled True (fun _ => true) () ["a", "b"] known
      (known.registerListeners (fun _ => true) () ["a", "b"]).2 ∧
    ¬Settled False (fun _ => true) () ["b", "a"] known
      (known.deregisterListeners (fun _ => true) () ["b", "a"]).2 := by
  constructor
  · intro h
    have hb := (h.asked "b" (List.mem_cons_of_mem _ List.mem_cons_self)).mpr trivial
    revert hb
    decide
  · intro h
    apply (h.asked "a" (List.mem_cons_of_mem _ List.mem_cons_self)).mp
    decide

end EventManager

end Events

end SatComm
