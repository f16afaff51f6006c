import SatComm.Runs.Lookup
import SatComm.Tel.Requests

/-!
# Handlers without eCalls

While no eCall redials, `changeCallState` writes to the first call with an index and a phone and
does nothing else to the list. Indices are not unique, but only the first of the calls with an
index and a phone has ever been given a state. So the loops that look for active calls and calls
on hold find calls that `changeCallState` then writes to, and these loops act on each call by
itself. The loops that end calls also look for incoming calls, and there the write may go to
another call.
-/

namespace SatComm

namespace Tel

open Lookup

namespace CallInfo

def key (call : CallInfo) : Int × Int := (call.index, call.phoneId)

def withState (action : CallState) (call : CallInfo) : CallInfo :=
  { call with callState := action }

/-- The call has the state that it was added with. -/
def IsNew (call : CallInfo) : Prop :=
  call.callState = .idle ∨ call.callState = .incoming ∨ call.callState = .waiting

@[simp]
theorem key_withState (action : CallState) (call : CallInfo) :
    (call.withState action).key = call.key := rfl

theorem find_eq (index phoneId : Int) :
    CallInfo.find index phoneId = fun call => decide (call.key = (index, phoneId)) := by
  funext call
  rw [Bool.eq_iff_iff]
  simp [CallInfo.find, key, Prod.ext_iff]

theorem IsNew.not_active {call : CallInfo} (h : call.callState = .active) : ¬ call.IsNew := by
  simp [IsNew, h]

theorem IsNew.not_onHold {call : CallInfo} (h : call.callState = .onHold) : ¬ call.IsNew := by
  simp [IsNew, h]

end CallInfo

open CallInfo

/-- A write to the object found is a write to the first call. -/
theorem map_write_eq_setFirst {calls : List CallInfo} {call : CallInfo} {k : Int × Int}
    (hnodup : (calls.map CallInfo.address).Nodup) (hfirst : first key k calls = some call)
    (action : CallState) :
    calls.map (CallInfo.write call.address action) = setFirst key k (withState action) calls := by
  induction calls with
  | nil => rfl
  | cons head calls ih =>
    obtain ⟨hhead, hrest⟩ := List.nodup_cons.mp hnodup
    rw [setFirst, List.map_cons]
    split_ifs with hkey
    · have hcall : call = head := by simpa [first, hkey, eq_comm] using hfirst
      subst hcall
      have hsame : ∀ other ∈ calls, other.write call.address action = other := by
        intro other hother
        refine if_neg fun h => hhead ?_
        exact h ▸ List.mem_map_of_mem hother
      rw [List.map_congr_left hsame, List.map_id']
      congr 1
      exact if_pos rfl
    · have htail : first key k calls = some call := by simpa [first, hkey] using hfirst
      have hne : head.address ≠ call.address := fun h =>
        hhead (h ▸ List.mem_map_of_mem (first_eq_some htail).1)
      rw [ih hrest htail]
      congr 1
      exact if_neg hne

namespace CallManager

/-- The states of a dialer that has made no eCall. -/
structure Plain (m : CallManager) : Prop where
  not_ongoing : m.eCallRedialIsOngoing = false
  nodup : (m.calls.map CallInfo.address).Nodup
  address_lt : ∀ call ∈ m.calls, call.address < m.allocated
  stacked : Stacked key IsNew m.calls
  incoming : ∀ call ∈ m.calls, call.callState = .incoming → call.index = 1
  waiting : ∀ call ∈ m.calls, call.callState = .waiting → call.index ≠ 1

theorem findMatchingCall_eq (m : CallManager) (slotId callIndex : Int) :
    m.findMatchingCall slotId callIndex = first key (callIndex, slotId) m.calls := by
  rw [findMatchingCall, find_eq]
  rfl

theorem calls_findCallAndUpdateCallState {m : CallManager}
    (hnodup : (m.calls.map CallInfo.address).Nodup) (index : Int) (action : CallState)
    (phoneId : Int) :
    (m.findCallAndUpdateCallState index action phoneId).calls =
      setFirst key (index, phoneId) (withState action) m.calls := by
  have hfind := m.findMatchingCall_eq phoneId index
  rw [findMatchingCall] at hfind
  rw [findCallAndUpdateCallState, hfind]
  cases hfirst : first key (index, phoneId) m.calls with
  | none => exact (setFirst_of_none hfirst).symm
  | some call => exact map_write_eq_setFirst hnodup hfirst action

theorem findCallAndUpdateCallState_fields (m : CallManager) (index : Int) (action : CallState)
    (phoneId : Int) :
    (m.findCallAndUpdateCallState index action phoneId).allocated = m.allocated ∧
      (m.findCallAndUpdateCallState index action phoneId).eCallRedialIsOngoing =
        m.eCallRedialIsOngoing := by
  unfold findCallAndUpdateCallState
  split <;> exact ⟨rfl, rfl⟩

theorem triggerCallInfoChangeEvent_fields (m : CallManager) (index phoneId : Int) :
    (m.triggerCallInfoChangeEvent index phoneId).calls = m.calls ∧
      (m.triggerCallInfoChangeEvent index phoneId).allocated = m.allocated ∧
      (m.triggerCallInfoChangeEvent index phoneId).eCallRedialIsOngoing =
        m.eCallRedialIsOngoing := by
  unfold triggerCallInfoChangeEvent
  repeat' split
  all_goals exact ⟨rfl, rfl, rfl⟩

theorem Plain.changeCallState_eq {m : CallManager} (h : m.Plain) (phoneId : Int)
    (state : CallState) (index : Int) :
    m.changeCallState phoneId state index = m.update phoneId state index := by
  refine if_neg fun hwaits => ?_
  rw [h.not_ongoing] at hwaits
  cases hwaits.1

theorem Plain.calls_changeCallState {m : CallManager} (h : m.Plain) (phoneId : Int)
    (state : CallState) (index : Int) :
    (m.changeCallState phoneId state index).calls =
      setFirst key (index, phoneId) (withState state) m.calls := by
  rw [h.changeCallState_eq, update, (triggerCallInfoChangeEvent_fields _ index phoneId).1]
  exact calls_findCallAndUpdateCallState h.nodup index state phoneId

theorem map_address_setFirst (k : Int × Int) (state : CallState) (calls : List CallInfo) :
    (setFirst key k (withState state) calls).map CallInfo.address =
      calls.map CallInfo.address := by
  induction calls with
  | nil => rfl
  | cons call calls ih =>
    rw [setFirst]
    split_ifs
    · rfl
    · rw [List.map_cons, List.map_cons, ih]

theorem Plain.changeCallState {m : CallManager} (h : m.Plain) (phoneId : Int)
    (state : CallState) (index : Int) (hincoming : state = .incoming → index = 1)
    (hwaiting : state = .waiting → index ≠ 1) :
    (m.changeCallState phoneId state index).Plain := by
  have hcalls := h.calls_changeCallState phoneId state index
  have hmem : ∀ call ∈ (m.changeCallState phoneId state index).calls,
      call ∈ m.calls ∨ ∃ old ∈ m.calls, old.key = (index, phoneId) ∧ call = old.withState state := by
    intro call hcall
    rw [hcalls] at hcall
    exact mem_setFirst hcall
  obtain ⟨-, hallocated, hongoing⟩ := triggerCallInfoChangeEvent_fields
    (m.findCallAndUpdateCallState index state phoneId) index phoneId
  obtain ⟨hallocated', hongoing'⟩ := m.findCallAndUpdateCallState_fields index state phoneId
  constructor
  · rw [h.changeCallState_eq, update, hongoing, hongoing', h.not_ongoing]
  · rw [hcalls, map_address_setFirst]
    exact h.nodup
  · intro call hcall
    rw [h.changeCallState_eq, update, hallocated, hallocated']
    rcases hmem call hcall with hold | ⟨old, hold, -, rfl⟩
    · exact h.address_lt call hold
    · exact h.address_lt old hold
  · rw [hcalls]
    exact h.stacked.setFirst (key_withState state)
  · intro call hcall hstate
    rcases hmem call hcall with hold | ⟨old, hold, hkey, rfl⟩
    · exact h.incoming call hold hstate
    · exact (congrArg Prod.fst hkey).trans (hincoming hstate)
  · intro call hcall hstate
    rcases hmem call hcall with hold | ⟨old, hold, hkey, rfl⟩
    · exact h.waiting call hold hstate
    · exact fun hone => hwaiting hstate ((congrArg Prod.fst hkey).symm.trans hone)

/-! ## Loops -/

theorem atCall_eq {m : CallManager} {before after : List CallInfo} {call : CallInfo}
    (h : m.calls = before ++ call :: after) (body : CallManager → CallInfo → CallManager) :
    atCall body m before.length = body m call := by
  rw [atCall, h, List.getElem?_append_right le_rfl, Nat.sub_self, List.getElem?_cons_zero]

/-- A write to a call that is not new, at its place in the list. -/
theorem Plain.changeCallState_of_append {m : CallManager} (h : m.Plain)
    {before after : List CallInfo} {call : CallInfo} (hcalls : m.calls = before ++ call :: after)
    (hnew : ¬ call.IsNew) (state : CallState) (hincoming : state ≠ .incoming)
    (hwaiting : state ≠ .waiting) :
    (m.changeCallState call.phoneId state call.index).Plain ∧
      (m.changeCallState call.phoneId state call.index).calls =
        before ++ call.withState state :: after := by
  refine ⟨h.changeCallState _ _ _ (fun hs => (hincoming hs).elim) (fun hs => (hwaiting hs).elim),
    ?_⟩
  rw [h.calls_changeCallState, hcalls]
  have hstacked := h.stacked
  rw [hcalls] at hstacked
  exact setFirst_append (hstacked.ne_of_append hnew)

/-- A loop whose turns change the call at hand and no other one changes each call by itself. -/
theorem Plain.calls_loop {m : CallManager} (h : m.Plain) {turn : CallManager → Nat → CallManager}
    {g : CallInfo → CallInfo}
    (hturn : ∀ (m : CallManager) before call after, m.Plain → m.calls = before ++ call :: after →
      (turn m before.length).Plain ∧ (turn m before.length).calls = before ++ g call :: after) :
    ((List.range m.calls.length).foldl turn m).Plain ∧
      ((List.range m.calls.length).foldl turn m).calls = m.calls.map g := by
  have hloop := foldl_positions (P := fun before s => s.Plain ∧
    ∀ after, m.calls = before ++ after → s.calls = before.map g ++ after) turn m.calls (s := m)
    ⟨h, fun after hafter => hafter⟩ ?_
  · exact ⟨hloop.1, by simpa using hloop.2 [] (by simp)⟩
  · rintro before call after s hsplit ⟨hplain, hcalls⟩
    have hturn' := hturn s (before.map g) call after hplain (hcalls _ hsplit)
    rw [List.length_map] at hturn'
    refine ⟨hturn'.1, fun after' hafter => ?_⟩
    have heq : after' = after := by
      rw [hsplit, List.append_assoc] at hafter
      simpa using hafter.symm
    rw [hturn'.2, heq]
    simp

/-- Active calls with another index are put on hold. -/
def held (index : Int) (call : CallInfo) : CallInfo :=
  if call.index ≠ index ∧ call.callState = .active then call.withState .onHold else call

theorem Plain.holdActiveCalls {m : CallManager} (h : m.Plain) (index : Int) :
    (m.holdActiveCalls index).Plain ∧ (m.holdActiveCalls index).calls = m.calls.map (held index) := by
  refine h.calls_loop fun s before call after hplain hcalls => ?_
  rw [atCall_eq hcalls, held]
  split_ifs with htest
  · exact hplain.changeCallState_of_append hcalls (IsNew.not_active htest.2) .onHold (by decide)
      (by decide)
  · exact ⟨hplain, hcalls⟩

/-- The first of the two changes that a turn of `swapCalls` makes. -/
def activated (callHoldIndex phoneIndex : Int) (call : CallInfo) : CallInfo :=
  if call.phoneId = phoneIndex ∧ call.index = callHoldIndex ∧ call.callState = .onHold then
    call.withState .active
  else call

/-- The second of the two changes. -/
def putOnHold (callActivateIndex phoneIndex : Int) (call : CallInfo) : CallInfo :=
  if call.phoneId = phoneIndex ∧ call.index = callActivateIndex ∧ call.callState = .active then
    call.withState .onHold
  else call

theorem Plain.swapCalls {m : CallManager} (h : m.Plain)
    (callHoldIndex phoneIndex callActivateIndex : Int) :
    (m.swapCalls callHoldIndex phoneIndex callActivateIndex).Plain ∧
      (m.swapCalls callHoldIndex phoneIndex callActivateIndex).calls =
        m.calls.map fun call =>
          putOnHold callActivateIndex phoneIndex (activated callHoldIndex phoneIndex call) := by
  refine h.calls_loop fun s before call after hplain hcalls => ?_
  rw [atCall_eq hcalls]
  -- the second test reads the state that the first change may have written
  have hfirst : ∀ {s' : CallManager}, s'.Plain →
      s'.calls = before ++ activated callHoldIndex phoneIndex call :: after →
      (atCall (fun m call => if call.phoneId = phoneIndex ∧ call.index = callActivateIndex ∧
          call.callState = .active then m.changeCallState call.phoneId .onHold call.index else m)
        s' before.length).Plain ∧
      (atCall (fun m call => if call.phoneId = phoneIndex ∧ call.index = callActivateIndex ∧
          call.callState = .active then m.changeCallState call.phoneId .onHold call.index else m)
        s' before.length).calls = before ++
          putOnHold callActivateIndex phoneIndex (activated callHoldIndex phoneIndex call) ::
            after := by
    intro s' hplain' hcalls'
    rw [atCall_eq hcalls']
    simp only [putOnHold]
    split_ifs with htest
    · exact hplain'.changeCallState_of_append hcalls' (IsNew.not_active htest.2.2) .onHold
        (by decide) (by decide)
    · exact ⟨hplain', hcalls'⟩
  split_ifs with htest
  · obtain ⟨hplain', hcalls'⟩ := hplain.changeCallState_of_append hcalls
      (IsNew.not_onHold htest.2.2) .active (by decide) (by decide)
    refine hfirst hplain' ?_
    rw [hcalls', activated, if_pos htest]
  · refine hfirst hplain ?_
    rw [hcalls, activated, if_neg htest]

/-- A loop that ends calls ends the first call with the key of a call that passes the test. -/
def Ends (test : CallInfo → Prop) (calls passed : List CallInfo) (call : CallInfo) : Prop :=
  first key call.key calls = some call ∧ ∃ other ∈ passed, other.key = call.key ∧ test other

instance (test : CallInfo → Prop) [DecidablePred test] (calls passed : List CallInfo) :
    DecidablePred (Ends test calls passed) := fun call =>
  inferInstanceAs (Decidable (_ ∧ ∃ other ∈ passed, other.key = call.key ∧ test other))

def endCalls (test : CallInfo → Prop) [DecidablePred test] (calls passed : List CallInfo)
    (call : CallInfo) : CallInfo :=
  if Ends test calls passed call then call.withState .ended else call

theorem key_endCalls (test : CallInfo → Prop) [DecidablePred test] (calls passed : List CallInfo)
    (call : CallInfo) : (endCalls test calls passed call).key = call.key := by
  unfold endCalls
  split_ifs <;> rfl

/-- The calls before a position cannot have ended the call at it. -/
theorem not_ends_of_append {test : CallInfo → Prop} {before after : List CallInfo}
    {call : CallInfo} (hnodup : (before ++ call :: after).Nodup) :
    ¬ Ends test (before ++ call :: after) before call := by
  rintro ⟨hfirst, other, hother, hkey, -⟩
  obtain ⟨found, hfound⟩ := exists_first hother hkey
  have hfirst' : first key call.key (before ++ call :: after) = some found := by
    rw [first, List.find?_append]
    exact hfound ▸ Option.some_or
  have heq : call = found := Option.some.inj (hfirst.symm.trans hfirst')
  have hmem : call ∈ before := heq ▸ (first_eq_some hfound).1
  exact (List.disjoint_of_nodup_append hnodup) hmem List.mem_cons_self

/-- The turn of the loop at a call that passes the test. -/
theorem endCalls_append {test : CallInfo → Prop} [DecidablePred test]
    {calls before : List CallInfo} {call : CallInfo} (htest : test call) (other : CallInfo) :
    endCalls test calls (before ++ [call]) other =
      if first key call.key calls = some other then (endCalls test calls before other).withState .ended
      else endCalls test calls before other := by
  by_cases hfirst : first key call.key calls = some other
  · have hkey : other.key = call.key := (first_eq_some hfirst).2
    have hends : Ends test calls (before ++ [call]) other :=
      ⟨hkey ▸ hfirst, call, by simp, hkey.symm, htest⟩
    rw [if_pos hfirst, endCalls, if_pos hends]
    unfold endCalls
    split_ifs <;> rfl
  · rw [if_neg hfirst]
    unfold endCalls
    refine if_congr ?_ rfl rfl
    constructor
    · rintro ⟨hother, passed, hpassed, hkey, ht⟩
      rcases List.mem_append.mp hpassed with hmem | hmem
      · exact ⟨hother, passed, hmem, hkey, ht⟩
      · rw [List.mem_singleton.mp hmem] at hkey
        exact absurd (hkey ▸ hother) hfirst
    · rintro ⟨hother, passed, hpassed, hkey, ht⟩
      exact ⟨hother, passed, List.mem_append_left _ hpassed, hkey, ht⟩

theorem endCalls_append_of_not {test : CallInfo → Prop} [DecidablePred test]
    {calls before : List CallInfo} {call : CallInfo} (htest : ¬ test call) :
    endCalls test calls (before ++ [call]) = endCalls test calls before := by
  funext other
  refine if_congr (and_congr_right fun _ => ?_) rfl rfl
  simp only [List.mem_append, List.mem_singleton, or_and_right, exists_or, exists_eq_left, htest,
    and_false, or_false]

theorem Plain.calls_nodup {m : CallManager} (h : m.Plain) : m.calls.Nodup :=
  List.Nodup.of_map _ h.nodup

/-- The loops of the hangup handlers. -/
theorem Plain.endingLoop {m : CallManager} (h : m.Plain) (test : CallInfo → Prop)
    [DecidablePred test] :
    (m.forEachCall fun m call =>
        if test call then m.changeCallState call.phoneId .ended call.index else m).Plain ∧
      (m.forEachCall fun m call =>
        if test call then m.changeCallState call.phoneId .ended call.index else m).calls =
        m.calls.map (endCalls test m.calls m.calls) := by
  refine foldl_positions (P := fun before (s : CallManager) => s.Plain ∧
    s.calls = m.calls.map (endCalls test m.calls before)) _ m.calls ⟨h, ?_⟩ ?_
  · have hnone : endCalls test m.calls [] = id := by
      funext call
      exact if_neg fun hends => by simpa using hends.2
    rw [hnone, List.map_id]
  · rintro before call after s hsplit ⟨hplain, hcalls⟩
    have hnodup := h.calls_nodup
    -- the call at the position has the state it had before the loop
    have hsame : endCalls test m.calls before call = call := by
      rw [hsplit] at hnodup ⊢
      exact if_neg (not_ends_of_append hnodup)
    have hposition : s.calls = before.map (endCalls test m.calls before) ++
        call :: after.map (endCalls test m.calls before) := by
      rw [hcalls]
      nth_rewrite 2 [hsplit]
      rw [List.map_append, List.map_cons, hsame]
    have hturn := atCall_eq hposition fun m call =>
      if test call then m.changeCallState call.phoneId .ended call.index else m
    rw [List.length_map] at hturn
    rw [hturn]
    split_ifs with htest
    · refine ⟨hplain.changeCallState _ _ _ nofun nofun, ?_⟩
      rw [hplain.calls_changeCallState, hcalls]
      exact (setFirst_map hnodup _ (key_endCalls test m.calls before)).trans
        (List.map_congr_left fun other _ => (endCalls_append htest other).symm)
    · rw [endCalls_append_of_not htest]
      exact ⟨hplain, hcalls⟩

end CallManager

end Tel

end SatComm
