import SatComm.Tel.Indices
import SatComm.Tel.Redial

/-!
# Redialing among the other threads of the dialer

While `ModemRedial::onEnter` goes through its time gaps, other threads make and end calls. Its
change of the call to dialing waits until a removal has been made, puts back the call that the
removal has kept, and looks for the eCall in the list. So it relies on the removal to be that of the
eCall: a call that is removed in a gap takes the place of the eCall in `redialECallCache_`, and then
a null pointer is followed.
-/

namespace SatComm

namespace Tel

open CallManager

/-- The thread that redials, and the dialer that it acts on. -/
structure Redialing where
  manager : CallManager
  /-- What `ModemRedial::onEnter` has done, and what it has still to do. -/
  done : List RedialAct
  todo : List RedialAct
  /-- It waits in `changeCallState`. -/
  waits : Bool
  /-- A null pointer was followed, or put into the list for others to follow. -/
  crashed : Bool

/-- What `onECallRedial` writes to `eCallRedialIsOngoing_`. -/
def redials (willECallRedial : Bool) (reason : ReasonType) : Bool :=
  willECallRedial && (reason = .callOrigFailure || reason = .callDrop)

inductive RedialStep
  /-- A step of another thread of the dialer. -/
  | other (e : Event)
  /-- The thread goes on. -/
  | redial
deriving DecidableEq

namespace Redialing

def start (m : CallManager) (acts : List RedialAct) : Redialing where
  manager := m
  done := []
  todo := acts
  waits := false
  crashed := false

/-- The thread has done an act. -/
def next (r : Redialing) (a : RedialAct) (todo : List RedialAct) (m : CallManager) : Redialing :=
  { r with manager := m, done := r.done ++ [a], todo := todo, waits := false }

/-- The state of the call changes. Where the call is not in the list, the null pointer that is found
for it is followed. -/
def update (r : Redialing) (todo : List RedialAct) (m : CallManager) (phoneId : Int)
    (state : CallState) (callIndex : Int) : Redialing :=
  { r.next (.request (.changeCallState state)) todo (m.update phoneId state callIndex) with
    crashed := (m.findMatchingCall phoneId callIndex).isNone }

/-- `changeCallState`, up to the next wait. -/
def changeCallState (r : Redialing) (todo : List RedialAct) (phoneId : Int) (state : CallState)
    (callIndex : Int) : Redialing :=
  if r.waits ∨ r.manager.eCallRedialIsOngoing ∧ state = .dialing then
    if r.manager.callEndOperationCompleted then
      if r.manager.redialECallCache.isSome then
        r.update todo r.manager.reinsert phoneId state callIndex
      else { r with crashed := true }
    else { r with waits := true }
  else r.update todo r.manager phoneId state callIndex

/-- The thread does the next act, where the machine is the one of the call with this phone and this
index. -/
def act (phoneId callIndex : Int) (r : Redialing) (todo : List RedialAct) : RedialAct → Redialing
  | .request (.changeCallState state) => r.changeCallState todo phoneId state callIndex
  | .request (.onECallRedial willECallRedial reason) =>
    r.next (.request (.onECallRedial willECallRedial reason)) todo
      (r.manager.onECallRedial (redials willECallRedial reason))
  | a => r.next a todo r.manager

def step (phoneId callIndex : Int) (r : Redialing) : RedialStep → Redialing
  | .other e => { r with manager := r.manager.step e }
  | .redial =>
    if r.crashed then r
    else
      match r.todo with
      | [] => r
      | a :: todo => r.act phoneId callIndex todo a

/-- The states along an infinite run. -/
def runs (phoneId callIndex : Int) (r : Redialing) (e : ℕ → RedialStep) : ℕ → Redialing
  | 0 => r
  | n + 1 => (runs phoneId callIndex r e n).step phoneId callIndex (e n)

end Redialing

/-- The thread goes on again and again, and every removal of a call with this index is made. -/
structure Fair (callIndex : Int) (run : ℕ → Redialing) (e : ℕ → RedialStep) : Prop where
  redial : ∀ n, ∃ m, n ≤ m ∧ e m = .redial
  removal : ∀ n, callIndex ∈ (run n).manager.removals →
    ∃ m, n ≤ m ∧ e m = .other (.removal callIndex)

/-- The redialing performs its rounds, one for each time gap, and no redial is announced when it is
over. -/
structure Performed (config : RedialConfig) (timeGap : List Int) (callIndex : Int)
    (run : ℕ → Redialing) (e : ℕ → RedialStep) : Prop where
  safe : ∀ n, (run n).crashed = false
  rounds : ∀ n, (run n).todo = [] → Rounds config timeGap (run n).done
  idle : ∀ n, (run n).todo = [] → (run n).manager.eCallRedialIsOngoing = false
  returns : Fair callIndex run e → ∃ n, (run n).todo = []

/-! ## The condition -/

namespace CallManager

/-- The phones of the calls with an index. -/
def phones (m : CallManager) (index : Int) : List Int :=
  (m.calls.filter (·.index = index)).map (·.phoneId)

/-- Index and phone of the call in `redialECallCache_`. -/
def kept (m : CallManager) : Option (Int × Int) :=
  m.redialECallCache.map fun call => (call.index, call.phoneId)

/-- The eCall is in the list, and is to be removed. No other call has its index. -/
structure Leaving (phoneId callIndex : Int) (m : CallManager) : Prop where
  phones : m.phones callIndex = [phoneId]
  pending : callIndex ∈ m.removals

/-- The eCall was removed, and is kept. Another removal for its index finds no call. -/
structure Away (phoneId callIndex : Int) (m : CallManager) : Prop where
  phones : m.phones callIndex = []
  completed : m.callEndOperationCompleted = true
  kept : m.kept = some (callIndex, phoneId)

/-- How `PSAPCallback::onEnter` leaves the dialer: the redial is announced, the eCall has ended, and
no thread waits for a removal. -/
structure Begins (phoneId callIndex : Int) (m : CallManager) : Prop where
  ongoing : m.eCallRedialIsOngoing = true
  ended : m.Leaving phoneId callIndex ∨ m.Away phoneId callIndex
  redials : m.redials = []

/-- What another thread does leaves the redialing of the eCall with this index alone: it makes no
call with the index, does not touch the eCall, announces no redial and calls none off. While a
redial is announced no other call dials, and none is removed behind the eCall. -/
def Spares (callIndex : Int) (m : CallManager) : Event → Prop
  | .cleanUpService => m.phones callIndex = []
  | .makeCall _ | .makeECall _ | .handleIncomingCallRequest _ _ =>
    m.setCallIndexForNewCall ≠ callIndex
  | .changeCallState _ state index =>
    index ≠ callIndex ∧ ¬(m.eCallRedialIsOngoing = true ∧ state = .dialing)
  | .changeRttModeOfCall index _ => index ≠ callIndex
  | .onECallRedial willRedial => willRedial = m.eCallRedialIsOngoing
  | .removal index => index ∈ m.removals → m.eCallRedialIsOngoing = true →
      (m.matchingCall index).isSome → index = callIndex ∨ m.phones callIndex ≠ []
  | .resumeRedial _ _ | .handleHangupRequest _ _ => True

end CallManager

/-- Other threads leave the redialing alone, and the thread does not come to a dialing that finds
the removal of another call made but not that of the eCall. -/
structure Undisturbed (callIndex : Int) (run : ℕ → Redialing) (e : ℕ → RedialStep) : Prop where
  spares : ∀ n ev, e n = .other ev → (run n).manager.Spares callIndex ev
  removed : ∀ n, e n = .redial →
    (run n).todo.head? = some (.request (.changeCallState .dialing)) →
      (run n).manager.callEndOperationCompleted = true → callIndex ∉ (run n).manager.removals

namespace CallManager

/-- The eCall is in the list, and is not to be removed. -/
structure Present (phoneId callIndex : Int) (m : CallManager) : Prop where
  phones : m.phones callIndex = [phoneId]
  pending : callIndex ∉ m.removals

/-! ## What changes a call -/

variable {m m' m'' : CallManager} {phoneId callIndex index : Int} {e : Event}

theorem phoneId_write (address : Nat) (action : CallState) (call : CallInfo) :
    (call.write address action).phoneId = call.phoneId := by
  unfold CallInfo.write
  split_ifs <;> rfl

theorem phones_writeCallState (m : CallManager) (address : Nat) (action : CallState)
    (index : Int) : (m.writeCallState address action).phones index = m.phones index := by
  have hindex : (fun call : CallInfo => decide (call.index = index)) ∘
      CallInfo.write address action = fun call => decide (call.index = index) := by
    funext call
    rw [Function.comp_apply, index_write]
  have hphone : CallInfo.phoneId ∘ CallInfo.write address action = CallInfo.phoneId :=
    funext (phoneId_write address action)
  unfold phones writeCallState
  rw [List.filter_map, hindex, List.map_map, hphone]

theorem kept_writeCallState (m : CallManager) (address : Nat) (action : CallState) :
    (m.writeCallState address action).kept = m.kept := by
  unfold kept writeCallState
  rw [Option.map_map]
  congr 1
  funext call
  rw [Function.comp_apply, index_write, phoneId_write]

/-- As far as the index is concerned the lists and the flag are those from before, and so is what
is kept while the eCall is away. -/
structure Untouched (callIndex : Int) (m m' : CallManager) : Prop where
  phones : m'.phones callIndex = m.phones callIndex
  pending : callIndex ∈ m'.removals ↔ callIndex ∈ m.removals
  ongoing : m'.eCallRedialIsOngoing = m.eCallRedialIsOngoing
  redials : m'.redials = m.redials
  away : m.eCallRedialIsOngoing = true → m.phones callIndex = [] →
    m'.kept = m.kept ∧ m'.callEndOperationCompleted = m.callEndOperationCompleted

namespace Untouched

theorem refl (callIndex : Int) (m : CallManager) : Untouched callIndex m m :=
  ⟨rfl, Iff.rfl, rfl, rfl, fun _ _ => ⟨rfl, rfl⟩⟩

theorem trans (h : Untouched callIndex m m') (h' : Untouched callIndex m' m'') :
    Untouched callIndex m m'' where
  phones := h'.phones.trans h.phones
  pending := h'.pending.trans h.pending
  ongoing := h'.ongoing.trans h.ongoing
  redials := h'.redials.trans h.redials
  away hongoing hphones := by
    obtain ⟨hkept, hcompleted⟩ := h.away hongoing hphones
    obtain ⟨hkept', hcompleted'⟩ :=
      h'.away (h.ongoing.trans hongoing) (h.phones.trans hphones)
    exact ⟨hkept'.trans hkept, hcompleted'.trans hcompleted⟩

theorem findCallAndUpdateCallState (callIndex index : Int) (action : CallState) (phoneId : Int) :
    Untouched callIndex m (m.findCallAndUpdateCallState index action phoneId) := by
  unfold CallManager.findCallAndUpdateCallState
  split
  · exact ⟨phones_writeCallState .., Iff.rfl, rfl, rfl, fun _ _ => ⟨kept_writeCallState .., rfl⟩⟩
  · exact refl callIndex m

/-- What is triggered for another index. -/
theorem triggerCallInfoChangeEvent (hne : index ≠ callIndex) (phoneId : Int) :
    Untouched callIndex m (m.triggerCallInfoChangeEvent index phoneId) := by
  unfold CallManager.triggerCallInfoChangeEvent
  split
  · rename_i call hcall
    split_ifs
    · refine ⟨rfl, ?_, rfl, rfl, fun _ _ => ⟨rfl, rfl⟩⟩
      have hfound := List.find?_some hcall
      rw [CallInfo.find, Bool.and_eq_true, beq_iff_eq] at hfound
      rw [List.mem_append, hfound.1, List.mem_singleton]
      exact or_iff_left (Ne.symm hne)
    · exact refl callIndex m
  · exact refl callIndex m

theorem update (hne : index ≠ callIndex) (phoneId : Int) (state : CallState) :
    Untouched callIndex m (m.update phoneId state index) :=
  (findCallAndUpdateCallState callIndex index state phoneId).trans
    (triggerCallInfoChangeEvent hne phoneId)

theorem emplaceBack {call : CallInfo} (hne : call.index ≠ callIndex) :
    Untouched callIndex m (m.emplaceBack call) := by
  refine ⟨?_, Iff.rfl, rfl, rfl, fun _ _ => ⟨rfl, rfl⟩⟩
  unfold CallManager.phones CallManager.emplaceBack
  rw [List.filter_append, List.filter_singleton, decide_eq_false hne]
  exact congrArg _ (List.append_nil _)

theorem filter_eraseP {α : Type} {p q : α → Bool} (h : ∀ a, q a = true → p a = false)
    (l : List α) : (l.eraseP q).filter p = l.filter p := by
  induction l with
  | nil => rfl
  | cons a l ih =>
    cases hq : q a with
    | true => rw [List.eraseP_cons_of_pos hq, List.filter_cons_of_neg (by simp [h a hq])]
    | false =>
      rw [List.eraseP_cons_of_neg (by simp [hq]), List.filter_cons, List.filter_cons, ih]

/-- A removal task for another index finds no call while the eCall is away. -/
theorem findAndRemoveMatchingCall (hne : index ≠ callIndex)
    (hnone : m.eCallRedialIsOngoing = true → m.phones callIndex = [] →
      m.matchingCall index = none) :
    Untouched callIndex m (m.findAndRemoveMatchingCall index) := by
  have hpending : callIndex ∈ m.removals.erase index ↔ callIndex ∈ m.removals :=
    List.mem_erase_of_ne (Ne.symm hne)
  unfold CallManager.findAndRemoveMatchingCall
  cases hcall : m.matchingCall index with
  | none => exact ⟨rfl, hpending, rfl, rfl, fun _ _ => ⟨rfl, rfl⟩⟩
  | some call =>
    refine ⟨?_, hpending, rfl, rfl, fun hongoing hphones => ?_⟩
    · unfold CallManager.phones
      dsimp only
      rw [filter_eraseP]
      intro call' hcall'
      rw [beq_iff_eq] at hcall'
      exact decide_eq_false (hcall' ▸ hne)
    · rw [hnone hongoing hphones] at hcall
      cases hcall

end Untouched

theorem untouched_addNewCallDetails (request : CallRequest)
    (hne : m.setCallIndexForNewCall ≠ callIndex) :
    Untouched callIndex m ((m.addNewCallDetails request).getD m) := by
  cases hadd : m.addNewCallDetails request with
  | none => exact .refl callIndex m
  | some m' =>
    rw [eq_of_addNewCallDetails hadd, Option.getD_some]
    exact .emplaceBack hne

/-- Other threads leave the eCall alone, apart from its own removal. -/
theorem untouched_step (h : m.Spares callIndex e) (hredials : m.redials = [])
    (hremoval : e ≠ .removal callIndex) : Untouched callIndex m (m.step e) := by
  cases e with
  | cleanUpService =>
    have hphones : m.phones callIndex = [] := h
    exact ⟨hphones.symm, Iff.rfl, rfl, rfl, fun _ _ => ⟨rfl, rfl⟩⟩
  | makeCall request => exact untouched_addNewCallDetails request h
  | makeECall request =>
    rw [step]
    split_ifs
    · exact .refl callIndex m
    · exact untouched_addNewCallDetails request h
  | handleIncomingCallRequest phoneId dialNumber =>
    rw [step]
    cases hadd : m.handleIncomingCallRequest phoneId dialNumber with
    | none => exact .refl callIndex m
    | some m' =>
      rw [eq_of_handleIncomingCallRequest hadd, Option.getD_some]
      exact .emplaceBack h
  | changeCallState phoneId state index =>
    rw [step, changeCallState, if_neg h.2]
    exact .update h.1 phoneId state
  | resumeRedial phoneId index =>
    have hnone : ¬((phoneId, index) ∈ m.redials ∧ m.callEndOperationCompleted = true) := by
      rw [hredials]
      exact fun hand => absurd hand.1 List.not_mem_nil
    rw [step, resumeRedial, if_neg hnone]
    exact .refl callIndex m
  | handleHangupRequest phoneId index =>
    exact .findCallAndUpdateCallState callIndex index .ended phoneId
  | changeRttModeOfCall index phoneId => exact .triggerCallInfoChangeEvent h phoneId
  | onECallRedial willRedial =>
    have hsame : willRedial = m.eCallRedialIsOngoing := h
    rw [step, hsame]
    exact .refl callIndex m
  | removal index =>
    have hne : index ≠ callIndex := fun heq => hremoval (heq ▸ rfl)
    rw [step]
    split_ifs with hpending
    · refine .findAndRemoveMatchingCall hne fun hongoing hphones => ?_
      cases hcall : m.matchingCall index with
      | none => rfl
      | some call =>
        rcases h hpending hongoing (by rw [hcall]; rfl) with heq | hthere
        · exact absurd heq hne
        · exact absurd hphones hthere
    · exact .refl callIndex m

/-! ## The removal of the eCall, and its way back -/

theorem exists_of_phones (h : m.phones index = [phoneId]) :
    ∃ call, m.matchingCall index = some call ∧ call.index = index ∧ call.phoneId = phoneId := by
  have hfind : m.matchingCall index = (m.calls.filter (·.index = index)).head? := by
    rw [matchingCall, List.head?_filter]
    rfl
  obtain ⟨call, hfilter, hphone⟩ := List.map_eq_singleton_iff.mp h
  have hmem : call ∈ m.calls.filter (·.index = index) := hfilter ▸ List.mem_singleton_self call
  refine ⟨call, ?_, of_decide_eq_true (List.mem_filter.mp hmem).2, hphone⟩
  rw [hfind, hfilter]
  rfl

theorem isSome_findMatchingCall (h : m.phones index = [phoneId]) :
    (m.findMatchingCall phoneId index).isSome := by
  obtain ⟨call, hcall, hindex, hphone⟩ := exists_of_phones h
  rw [findMatchingCall, List.find?_isSome]
  refine ⟨call, List.mem_of_find?_eq_some hcall, ?_⟩
  rw [CallInfo.find, hindex, hphone, beq_self_eq_true, beq_self_eq_true, Bool.and_self]

theorem filter_eraseP_self {α : Type} (p : α → Bool) (l : List α) :
    (l.eraseP p).filter p = (l.filter p).tail := by
  induction l with
  | nil => rfl
  | cons a l ih =>
    cases hp : p a with
    | true => rw [List.eraseP_cons_of_pos hp, List.filter_cons_of_pos hp, List.tail_cons]
    | false =>
      have hnot : ¬p a = true := by simp [hp]
      rw [List.eraseP_cons_of_neg hnot, List.filter_cons_of_neg hnot, List.filter_cons_of_neg hnot,
        ih]

/-- The removal task of the eCall keeps it. -/
theorem Leaving.removal (h : m.Leaving phoneId callIndex) (hongoing : m.eCallRedialIsOngoing = true) :
    (m.step (.removal callIndex)).Away phoneId callIndex := by
  obtain ⟨call, hcall, hindex, hphone⟩ := exists_of_phones h.phones
  have hstep : m.step (.removal callIndex) = { m with
      calls := m.calls.eraseP fun call => call.index == callIndex
      redialECallCache := some call
      callEndOperationCompleted := true
      removals := m.removals.erase callIndex } := by
    rw [step, if_pos h.pending, findAndRemoveMatchingCall, hcall, hongoing]
    rfl
  rw [hstep]
  refine ⟨?_, rfl, ?_⟩
  · have herase : (m.calls.eraseP fun call => call.index == callIndex).filter
        (·.index = callIndex) = (m.calls.filter (·.index = callIndex)).tail := by
      exact filter_eraseP_self (fun call => decide (call.index = callIndex)) m.calls
    have hphones := h.phones
    unfold CallManager.phones at hphones ⊢
    rw [herase, List.map_tail, hphones]
    rfl
  · rw [CallManager.kept, Option.map_some, hindex, hphone]

/-- The removal task of the eCall does nothing when the eCall is to stay. -/
theorem step_removal (h : callIndex ∉ m.removals) : m.step (.removal callIndex) = m := by
  rw [step, if_neg h]

theorem matchingCall_of_phones (h : m.phones index = []) : m.matchingCall index = none := by
  rw [matchingCall, List.find?_eq_none]
  intro call hcall heq
  have hmem : call ∈ m.calls.filter (·.index = index) :=
    List.mem_filter.mpr ⟨hcall, by simpa using heq⟩
  rw [List.map_eq_nil_iff.mp h] at hmem
  exact List.not_mem_nil hmem

/-- An eCall that is away stays away whatever another thread does. -/
theorem Away.step (h : m.Away phoneId callIndex) (hongoing : m.eCallRedialIsOngoing = true)
    (hredials : m.redials = []) (hspares : m.Spares callIndex e) :
    (m.step e).Away phoneId callIndex := by
  by_cases hremoval : e = .removal callIndex
  · rw [hremoval, CallManager.step]
    split_ifs
    · rw [findAndRemoveMatchingCall, matchingCall_of_phones h.phones]
      exact ⟨h.phones, h.completed, h.kept⟩
    · exact h
  · have hsame := untouched_step hspares hredials hremoval
    obtain ⟨hkept, hcompleted⟩ := hsame.away hongoing h.phones
    exact ⟨hsame.phones.trans h.phones, hcompleted.trans h.completed, hkept.trans h.kept⟩

/-- A change of a state leaves everything but the state and the removals as it is. -/
structure Alone (m m' : CallManager) : Prop where
  phones : ∀ index, m'.phones index = m.phones index
  ongoing : m'.eCallRedialIsOngoing = m.eCallRedialIsOngoing
  redials : m'.redials = m.redials

theorem alone_findCallAndUpdateCallState (m : CallManager) (index : Int) (action : CallState)
    (phoneId : Int) : Alone m (m.findCallAndUpdateCallState index action phoneId) := by
  unfold findCallAndUpdateCallState
  split
  · exact ⟨phones_writeCallState m _ action, rfl, rfl⟩
  · exact ⟨fun _ => rfl, rfl, rfl⟩

theorem alone_update (m : CallManager) (phoneId : Int) (state : CallState) (index : Int) :
    Alone m (m.update phoneId state index) := by
  obtain ⟨hphones, hongoing, hredials⟩ :=
    alone_findCallAndUpdateCallState m index state phoneId
  unfold update triggerCallInfoChangeEvent
  repeat' split
  all_goals exact ⟨hphones, hongoing, hredials⟩

/-- A call that is found and ends is to be removed. -/
theorem removals_update (h : (m.findMatchingCall phoneId index).isSome) (state : CallState) :
    (m.update phoneId state index).removals =
      if state = .ended then m.removals ++ [index] else m.removals := by
  obtain ⟨call, hcall⟩ := Option.isSome_iff_exists.mp h
  have hfound := List.find?_some hcall
  rw [CallInfo.find, Bool.and_eq_true, beq_iff_eq] at hfound
  have hwrite : m.findCallAndUpdateCallState index state phoneId =
      m.writeCallState call.address state := by
    rw [findMatchingCall] at hcall
    rw [findCallAndUpdateCallState, hcall]
  have hsame : CallInfo.find index phoneId ∘ CallInfo.write call.address state =
      CallInfo.find index phoneId := by
    funext call'
    rw [Function.comp_apply, CallInfo.find, CallInfo.find, index_write, phoneId_write]
  have hagain : (m.writeCallState call.address state).calls.find? (CallInfo.find index phoneId) =
      some { call with callState := state } := by
    rw [findMatchingCall] at hcall
    rw [writeCallState, List.find?_map, hsame, hcall, Option.map_some, CallInfo.write, if_pos rfl]
  rw [update, hwrite, triggerCallInfoChangeEvent, hagain]
  dsimp only
  split_ifs
  · rw [hfound.1]
    rfl
  · rfl

theorem Away.reinsert (h : m.Away phoneId callIndex) (hremoved : callIndex ∉ m.removals) :
    m.redialECallCache.isSome ∧ m.reinsert.Present phoneId callIndex := by
  obtain ⟨call, hcall, hkept⟩ := Option.map_eq_some_iff.mp h.kept
  obtain ⟨hindex, hphone⟩ := Prod.mk.inj hkept
  refine ⟨by rw [hcall]; rfl, ?_, hremoved⟩
  have hphones := h.phones
  unfold CallManager.phones CallManager.reinsert at *
  rw [hcall, Option.toList_some, List.filter_append, List.map_append, hphones, List.nil_append,
    List.filter_singleton, decide_eq_true hindex, cond_true, List.map_singleton, hphone]

theorem Present.dial (h : m.Present phoneId callIndex) :
    (m.update phoneId .dialing callIndex).Present phoneId callIndex := by
  have halone := alone_update m phoneId .dialing callIndex
  refine ⟨(halone.phones _).trans h.phones, ?_⟩
  rw [removals_update (isSome_findMatchingCall h.phones), if_neg (by decide)]
  exact h.pending

/-- `PSAPCallback::onEnter` announces a redial, and the eCall ends. -/
theorem begins_psapCallback (hphones : m.phones callIndex = [phoneId]) (hredials : m.redials = []) :
    ((m.onECallRedial true).changeCallState phoneId .ended callIndex).Begins phoneId callIndex := by
  have halone := alone_update (m.onECallRedial true) phoneId .ended callIndex
  have hfound : ((m.onECallRedial true).findMatchingCall phoneId callIndex).isSome :=
    isSome_findMatchingCall hphones
  rw [changeCallState, if_neg (by simp)]
  refine ⟨halone.ongoing, .inl ⟨(halone.phones callIndex).trans hphones, ?_⟩,
    halone.redials.trans hredials⟩
  rw [removals_update hfound, if_pos rfl]
  exact List.mem_append_right _ (List.mem_singleton_self callIndex)

theorem Present.hangUp (h : m.Present phoneId callIndex) :
    (m.update phoneId .ended callIndex).Leaving phoneId callIndex := by
  have halone := alone_update m phoneId .ended callIndex
  refine ⟨(halone.phones _).trans h.phones, ?_⟩
  rw [removals_update (isSome_findMatchingCall h.phones), if_pos rfl]
  exact List.mem_append_right _ (List.mem_singleton_self callIndex)

end CallManager

/-! ## The rounds that are ahead -/

/-- The requests of some rounds of which the last one comes to the maximum. -/
inductive Ahead (reason : ReasonType) : List ServiceRequest → Prop
  | last : Ahead reason
      [.changeCallState .dialing, .onECallRedial false .maxRedialAttempted, .changeCallState .ended]
  | more {requests : List ServiceRequest} : Ahead reason requests → Ahead reason
      (.changeCallState .dialing :: .onECallRedial true reason :: .changeCallState .ended :: requests)

/-- Where the thread stands, and what it finds. -/
inductive Ready (phoneId callIndex : Int) (reason : ReasonType) (m : CallManager) :
    List ServiceRequest → Prop
  | away {requests : List ServiceRequest} : m.eCallRedialIsOngoing = true →
    m.Leaving phoneId callIndex ∨ m.Away phoneId callIndex → Ahead reason requests →
    Ready phoneId callIndex reason m requests
  | dialling {requests : List ServiceRequest} : m.eCallRedialIsOngoing = true →
    m.Present phoneId callIndex → Ahead reason requests →
    Ready phoneId callIndex reason m
      (.onECallRedial true reason :: .changeCallState .ended :: requests)
  | reported {requests : List ServiceRequest} : m.eCallRedialIsOngoing = true →
    m.Present phoneId callIndex → Ahead reason requests →
    Ready phoneId callIndex reason m (.changeCallState .ended :: requests)
  | diallingLast : m.eCallRedialIsOngoing = true → m.Present phoneId callIndex →
    Ready phoneId callIndex reason m
      [.onECallRedial false .maxRedialAttempted, .changeCallState .ended]
  | reportedLast : m.eCallRedialIsOngoing = false → m.phones callIndex = [phoneId] →
    callIndex ∉ m.removals → Ready phoneId callIndex reason m [.changeCallState .ended]
  | finished : m.eCallRedialIsOngoing = false → Ready phoneId callIndex reason m []

/-- The rounds of a redialing ask for this. -/
theorem ahead_of_rounds {config : RedialConfig} {timeGap : List Int} {acts : List RedialAct}
    (h : Rounds config timeGap acts) (hne : timeGap ≠ []) :
    Ahead config.reason (acts.filterMap RedialAct.request?) := by
  obtain ⟨rounds, rfl, hlength, hround⟩ := h
  induction rounds generalizing timeGap with
  | nil => exact absurd (List.length_eq_zero_iff.mp hlength.symm) hne
  | cons round rounds ih =>
    obtain ⟨gap, gaps, rfl⟩ := List.exists_cons_of_ne_nil hne
    have hfirst := (hround 0 round gap rfl rfl).requests
    have hlengths : rounds.length = gaps.length := Nat.succ.inj hlength
    rw [List.flatten_cons, List.filterMap_append, hfirst]
    by_cases hlast : gaps = []
    · subst hlast
      rw [List.length_eq_zero_iff.mp hlengths]
      exact .last
    · have hpos : 0 < gaps.length := List.length_pos_iff.mpr hlast
      rw [if_neg (by rw [List.length_cons]; omega)]
      refine .more (ih hlast hlengths fun k round' gap' hk hk' => ?_)
      have hnext := hround (k + 1) round' gap' hk hk'
      have hiff : k + 1 + 1 = (gap :: gaps).length ↔ k + 1 = gaps.length := by
        rw [List.length_cons, Nat.succ_inj]
      exact ⟨hnext.gap, by rw [hnext.requests]; simp only [hiff]⟩

section

variable {phoneId callIndex : Int} {reason : ReasonType} {m m' : CallManager}
  {requests : List ServiceRequest} {e : Event}

theorem removal_flags (m : CallManager) (index : Int) :
    (m.step (.removal index)).eCallRedialIsOngoing = m.eCallRedialIsOngoing ∧
      (m.step (.removal index)).redials = m.redials := by
  unfold step findAndRemoveMatchingCall
  dsimp only
  repeat' split
  all_goals exact ⟨rfl, rfl⟩

theorem CallManager.Present.untouched (h : m.Present phoneId callIndex)
    (hsame : Untouched callIndex m m') : m'.Present phoneId callIndex :=
  ⟨hsame.phones.trans h.phones, fun hmem => h.pending (hsame.pending.mp hmem)⟩

/-- Another thread leaves everything as the redialing has to find it. -/
theorem Ready.other (h : Ready phoneId callIndex reason m requests) (hredials : m.redials = [])
    (hspares : m.Spares callIndex e) : Ready phoneId callIndex reason (m.step e) requests ∧
      (m.step e).redials = [] := by
  by_cases hremoval : e = .removal callIndex
  · subst hremoval
    have hstays : callIndex ∉ m.removals →
        Ready phoneId callIndex reason (m.step (.removal callIndex)) requests ∧
          (m.step (.removal callIndex)).redials = [] := fun hremoved => by
      rw [step_removal hremoved]
      exact ⟨h, hredials⟩
    cases h with
    | away hongoing hended hahead =>
      obtain ⟨hflag, hwaiting⟩ := removal_flags m callIndex
      refine ⟨.away (hflag.trans hongoing) (.inr ?_) hahead, hwaiting.trans hredials⟩
      rcases hended with hleaving | haway
      · exact hleaving.removal hongoing
      · exact haway.step hongoing hredials hspares
    | dialling hongoing hpresent hahead => exact hstays hpresent.pending
    | reported hongoing hpresent hahead => exact hstays hpresent.pending
    | diallingLast hongoing hpresent => exact hstays hpresent.pending
    | reportedLast hongoing hphones hremoved => exact hstays hremoved
    | finished hongoing =>
      obtain ⟨hflag, hwaiting⟩ := removal_flags m callIndex
      exact ⟨.finished (hflag.trans hongoing), hwaiting.trans hredials⟩
  · have hsame := untouched_step hspares hredials hremoval
    refine ⟨?_, hsame.redials.trans hredials⟩
    cases h with
    | away hongoing hended hahead =>
      refine .away (hsame.ongoing.trans hongoing) (hended.imp (fun hleaving => ?_)
        fun haway => ?_) hahead
      · exact ⟨hsame.phones.trans hleaving.phones, hsame.pending.mpr hleaving.pending⟩
      · exact haway.step hongoing hredials hspares
    | dialling hongoing hpresent hahead =>
      exact .dialling (hsame.ongoing.trans hongoing) (hpresent.untouched hsame) hahead
    | reported hongoing hpresent hahead =>
      exact .reported (hsame.ongoing.trans hongoing) (hpresent.untouched hsame) hahead
    | diallingLast hongoing hpresent =>
      exact .diallingLast (hsame.ongoing.trans hongoing) (hpresent.untouched hsame)
    | reportedLast hongoing hphones hremoved =>
      exact .reportedLast (hsame.ongoing.trans hongoing) (hsame.phones.trans hphones)
        fun hmem => hremoved (hsame.pending.mp hmem)
    | finished hongoing => exact .finished (hsame.ongoing.trans hongoing)

/-! ## The thread -/

/-- What holds at all times while the thread redials. -/
structure Redialing.Good (phoneId callIndex : Int) (reason : ReasonType) (r : Redialing) : Prop where
  safe : r.crashed = false
  ready : Ready phoneId callIndex reason r.manager (r.todo.filterMap RedialAct.request?)
  redials : r.manager.redials = []
  waits : r.waits = true → ∃ todo, r.todo = .request (.changeCallState .dialing) :: todo

namespace Redialing

variable {r : Redialing} {a : RedialAct} {todo : List RedialAct}

theorem Good.other (h : r.Good phoneId callIndex reason) (hspares : r.manager.Spares callIndex e) :
    (r.step phoneId callIndex (.other e)).Good phoneId callIndex reason := by
  obtain ⟨hready, hredials⟩ := h.ready.other h.redials hspares
  exact ⟨h.safe, hready, hredials, h.waits⟩

/-- The thread has done the act, or it waits for the removal of the eCall. -/
def Goes (phoneId callIndex : Int) (r : Redialing) (a : RedialAct) (todo : List RedialAct)
    (r' : Redialing) : Prop :=
  r'.todo = todo ∧ r'.done = r.done ++ [a] ∨
    (r.manager.Leaving phoneId callIndex ∧ a = .request (.changeCallState .dialing)) ∧
      r'.todo = r.todo ∧ r'.done = r.done

/-- The call is in the list, and changes its state. -/
theorem good_update (r : Redialing) {state : CallState} (hredials : m.redials = [])
    (hphones : m.phones callIndex = [phoneId])
    (hready : Ready phoneId callIndex reason (m.update phoneId state callIndex)
      (todo.filterMap RedialAct.request?)) :
    (r.update todo m phoneId state callIndex).Good phoneId callIndex reason ∧
      Goes phoneId callIndex r (.request (.changeCallState state)) todo
        (r.update todo m phoneId state callIndex) := by
  refine ⟨⟨?_, hready, ?_, nofun⟩, .inl ⟨rfl, rfl⟩⟩
  · exact Option.isNone_eq_false_iff.mpr (isSome_findMatchingCall hphones)
  · exact (alone_update m phoneId state callIndex).redials.trans hredials

/-- The eCall dials as soon as it is kept. -/
theorem Good.dial (h : r.Good phoneId callIndex reason)
    (hongoing : r.manager.eCallRedialIsOngoing = true)
    (hended : r.manager.Leaving phoneId callIndex ∨ r.manager.Away phoneId callIndex)
    (hremoved : r.manager.callEndOperationCompleted = true → callIndex ∉ r.manager.removals)
    (htodo : r.todo = .request (.changeCallState .dialing) :: todo)
    (hready : ∀ m : CallManager, m.eCallRedialIsOngoing = true → m.Present phoneId callIndex →
      Ready phoneId callIndex reason m (todo.filterMap RedialAct.request?)) :
    (r.changeCallState todo phoneId .dialing callIndex).Good phoneId callIndex reason ∧
      Goes phoneId callIndex r (.request (.changeCallState .dialing)) todo
        (r.changeCallState todo phoneId .dialing callIndex) := by
  unfold Redialing.changeCallState
  rw [if_pos (.inr ⟨hongoing, rfl⟩)]
  rcases hended with hleaving | haway
  · rw [if_neg fun hcompleted => hremoved hcompleted hleaving.pending]
    exact ⟨⟨h.safe, h.ready, h.redials, fun _ => ⟨todo, htodo⟩⟩, .inr ⟨⟨hleaving, rfl⟩, rfl, rfl⟩⟩
  · obtain ⟨hkept, hpresent⟩ := haway.reinsert (hremoved haway.completed)
    rw [if_pos haway.completed, if_pos hkept]
    refine good_update r (h.redials : r.manager.reinsert.redials = []) hpresent.phones
      (hready _ ?_ hpresent.dial)
    exact (alone_update _ phoneId .dialing callIndex).ongoing.trans hongoing

/-- The eCall ends. -/
theorem Good.hangUp (h : r.Good phoneId callIndex reason)
    (htodo : r.todo = .request (.changeCallState .ended) :: todo)
    (hphones : r.manager.phones callIndex = [phoneId])
    (hready : Ready phoneId callIndex reason (r.manager.update phoneId .ended callIndex)
      (todo.filterMap RedialAct.request?)) :
    (r.changeCallState todo phoneId .ended callIndex).Good phoneId callIndex reason ∧
      Goes phoneId callIndex r (.request (.changeCallState .ended)) todo
        (r.changeCallState todo phoneId .ended callIndex) := by
  have hnot : ¬(r.waits = true ∨
      r.manager.eCallRedialIsOngoing = true ∧ CallState.ended = .dialing) := by
    rintro (hwaits | ⟨-, hdialing⟩)
    · obtain ⟨todo', htodo'⟩ := h.waits hwaits
      rw [htodo] at htodo'
      cases htodo'
    · cases hdialing
  unfold Redialing.changeCallState
  rw [if_neg hnot]
  exact good_update r h.redials hphones hready

/-- A report to the call manager. -/
theorem Good.report (h : r.Good phoneId callIndex reason) {willECallRedial : Bool}
    {reported : ReasonType}
    (hready : Ready phoneId callIndex reason
      (r.manager.onECallRedial (Tel.redials willECallRedial reported))
      (todo.filterMap RedialAct.request?)) :
    (r.act phoneId callIndex todo (.request (.onECallRedial willECallRedial reported))).Good
        phoneId callIndex reason ∧
      Goes phoneId callIndex r (.request (.onECallRedial willECallRedial reported)) todo
        (r.act phoneId callIndex todo (.request (.onECallRedial willECallRedial reported))) :=
  ⟨⟨h.safe, hready, h.redials, nofun⟩, .inl ⟨rfl, rfl⟩⟩

/-- The thread does an act that the rounds ask for. -/
theorem Good.act (h : r.Good phoneId callIndex reason) (hreason : Tel.redials true reason = true)
    (htodo : r.todo = a :: todo) (hremoved : a = .request (.changeCallState .dialing) →
      r.manager.callEndOperationCompleted = true → callIndex ∉ r.manager.removals) :
    (r.act phoneId callIndex todo a).Good phoneId callIndex reason ∧
      Goes phoneId callIndex r a todo (r.act phoneId callIndex todo a) := by
  have hready := h.ready
  rw [htodo] at hready
  have hnext : a.request? = none → (r.next a todo r.manager).Good phoneId callIndex reason ∧
      Goes phoneId callIndex r a todo (r.next a todo r.manager) := by
    intro hnone
    rw [List.filterMap_cons_none hnone] at hready
    exact ⟨⟨h.safe, hready, h.redials, nofun⟩, .inl ⟨rfl, rfl⟩⟩
  cases a with
  | sleepFor milliseconds => exact hnext rfl
  | sendEvent request => exact hnext rfl
  | startTimer => exact hnext rfl
  | request request =>
    rw [List.filterMap_cons_some (rfl : (RedialAct.request request).request? = some request)]
      at hready
    generalize hrequests : todo.filterMap RedialAct.request? = requests at hready
    cases hready with
    | away hongoing hended hahead =>
      cases hahead with
      | last =>
        exact h.dial hongoing hended (hremoved rfl) htodo fun m hm hpresent =>
          hrequests ▸ .diallingLast hm hpresent
      | more hahead =>
        exact h.dial hongoing hended (hremoved rfl) htodo fun m hm hpresent =>
          hrequests ▸ .dialling hm hpresent hahead
    | dialling hongoing hpresent hahead =>
      apply h.report
      rw [hrequests]
      exact .reported hreason ⟨hpresent.phones, hpresent.pending⟩ hahead
    | reported hongoing hpresent hahead =>
      apply h.hangUp htodo hpresent.phones
      rw [hrequests]
      exact .away ((alone_update _ phoneId .ended callIndex).ongoing.trans hongoing)
        (.inl hpresent.hangUp) hahead
    | diallingLast hongoing hpresent =>
      apply h.report
      rw [hrequests]
      exact .reportedLast rfl hpresent.phones hpresent.pending
    | reportedLast hongoing hphones hremoved =>
      apply h.hangUp htodo hphones
      rw [hrequests]
      exact .finished ((alone_update _ phoneId .ended callIndex).ongoing.trans hongoing)

theorem step_redial (hsafe : r.crashed = false) (htodo : r.todo = a :: todo) :
    r.step phoneId callIndex .redial = r.act phoneId callIndex todo a := by
  rw [step, hsafe, htodo]
  rfl

theorem step_returned (htodo : r.todo = []) : r.step phoneId callIndex .redial = r := by
  rw [step, htodo]
  exact ite_self r

/-! ## Runs -/

section

variable {e : ℕ → RedialStep}

theorem good_runs (h : r.Good phoneId callIndex reason) (hreason : Tel.redials true reason = true)
    (hundisturbed : Undisturbed callIndex (r.runs phoneId callIndex e) e) (n : ℕ) :
    (r.runs phoneId callIndex e n).Good phoneId callIndex reason := by
  induction n with
  | zero => exact h
  | succ n ih =>
    rw [runs]
    cases he : e n with
    | other ev => exact ih.other (hundisturbed.spares n ev he)
    | redial =>
      cases htodo : (r.runs phoneId callIndex e n).todo with
      | nil =>
        rw [step_returned htodo]
        exact ih
      | cons a todo =>
        rw [step_redial ih.safe htodo]
        refine (ih.act hreason htodo fun ha => hundisturbed.removed n he ?_).1
        rw [htodo, ha]
        rfl

/-- A step of the thread does the next act, or finds the eCall still to be removed. -/
theorem goes_runs (h : r.Good phoneId callIndex reason) (hreason : Tel.redials true reason = true)
    (hundisturbed : Undisturbed callIndex (r.runs phoneId callIndex e) e) {n : ℕ}
    (he : e n = .redial) (htodo : (r.runs phoneId callIndex e n).todo = a :: todo) :
    Goes phoneId callIndex (r.runs phoneId callIndex e n) a todo
      (r.runs phoneId callIndex e (n + 1)) := by
  have hgood := good_runs h hreason hundisturbed n
  rw [runs, he, step_redial hgood.safe htodo]
  refine (hgood.act hreason htodo fun ha => hundisturbed.removed n he ?_).2
  rw [htodo, ha]
  rfl

/-- A step leaves the acts alone, or does the next one. -/
theorem acts_step (h : r.Good phoneId callIndex reason) (hreason : Tel.redials true reason = true)
    (hundisturbed : Undisturbed callIndex (r.runs phoneId callIndex e) e) (n : ℕ) :
    ((r.runs phoneId callIndex e (n + 1)).todo = (r.runs phoneId callIndex e n).todo ∧
      (r.runs phoneId callIndex e (n + 1)).done = (r.runs phoneId callIndex e n).done) ∨
    ∃ a, (r.runs phoneId callIndex e n).todo = a :: (r.runs phoneId callIndex e (n + 1)).todo ∧
      (r.runs phoneId callIndex e (n + 1)).done = (r.runs phoneId callIndex e n).done ++ [a] := by
  cases he : e n with
  | other ev =>
    rw [runs, he]
    exact .inl ⟨rfl, rfl⟩
  | redial =>
    cases htodo : (r.runs phoneId callIndex e n).todo with
    | nil =>
      rw [runs, he, step_returned htodo]
      exact .inl ⟨htodo, rfl⟩
    | cons a todo =>
      rcases goes_runs h hreason hundisturbed he htodo with ⟨htodo', hdone⟩ | ⟨-, htodo', hdone⟩
      · exact .inr ⟨a, by rw [htodo'], hdone⟩
      · exact .inl ⟨htodo'.trans htodo, hdone⟩

/-- What is done and what is to do make up the acts. -/
theorem acts_runs (h : r.Good phoneId callIndex reason) (hreason : Tel.redials true reason = true)
    (hundisturbed : Undisturbed callIndex (r.runs phoneId callIndex e) e) (n : ℕ) :
    (r.runs phoneId callIndex e n).done ++ (r.runs phoneId callIndex e n).todo =
      r.done ++ r.todo := by
  induction n with
  | zero => rfl
  | succ n ih =>
    rw [← ih]
    rcases acts_step h hreason hundisturbed n with ⟨htodo, hdone⟩ | ⟨a, htodo, hdone⟩
    · rw [htodo, hdone]
    · rw [htodo, hdone, List.append_assoc]
      rfl

theorem todo_suffix (h : r.Good phoneId callIndex reason) (hreason : Tel.redials true reason = true)
    (hundisturbed : Undisturbed callIndex (r.runs phoneId callIndex e) e) {n m : ℕ}
    (hle : n ≤ m) :
    (r.runs phoneId callIndex e m).todo <:+ (r.runs phoneId callIndex e n).todo := by
  induction m, hle using Nat.le_induction with
  | base => exact List.suffix_rfl
  | succ m hle ih =>
    refine List.IsSuffix.trans ?_ ih
    rcases acts_step h hreason hundisturbed m with ⟨htodo, -⟩ | ⟨a, htodo, -⟩
    · exact htodo ▸ List.suffix_rfl
    · exact htodo ▸ List.suffix_cons a _

/-! ## The thread returns -/

theorem Good.ended (h : r.Good phoneId callIndex reason)
    (htodo : r.todo = .request (.changeCallState .dialing) :: todo) :
    r.manager.eCallRedialIsOngoing = true ∧
      (r.manager.Leaving phoneId callIndex ∨ r.manager.Away phoneId callIndex) := by
  have hready := h.ready
  rw [htodo, List.filterMap_cons_some (rfl : (RedialAct.request _).request? = some _)] at hready
  cases hready with
  | away hongoing hended => exact ⟨hongoing, hended⟩

/-- While the thread does not go on, an eCall that is away stays away. -/
theorem away_runs (h : r.Good phoneId callIndex reason) (hreason : Tel.redials true reason = true)
    (hundisturbed : Undisturbed callIndex (r.runs phoneId callIndex e) e) {n : ℕ}
    (hstays : ∀ m, n ≤ m → (r.runs phoneId callIndex e m).todo =
      .request (.changeCallState .dialing) :: todo)
    (haway : (r.runs phoneId callIndex e n).manager.Away phoneId callIndex) {m : ℕ} (hle : n ≤ m) :
    (r.runs phoneId callIndex e m).manager.Away phoneId callIndex := by
  induction m, hle using Nat.le_induction with
  | base => exact haway
  | succ m hle ih =>
    have hgood := good_runs h hreason hundisturbed m
    obtain ⟨hongoing, -⟩ := hgood.ended (hstays m hle)
    cases he : e m with
    | other ev =>
      rw [runs, he]
      exact ih.step hongoing hgood.redials (hundisturbed.spares m ev he)
    | redial =>
      rcases goes_runs h hreason hundisturbed he (hstays m hle) with ⟨htodo, -⟩ | ⟨⟨hleaving, -⟩, -⟩
      · rw [hstays (m + 1) (hle.trans m.le_succ)] at htodo
        exact absurd htodo (List.cons_ne_self _ _)
      · exact absurd (hleaving.phones.symm.trans ih.phones) (List.cons_ne_nil _ _)

/-- The act that comes next is done at some time. -/
theorem shrinks (h : r.Good phoneId callIndex reason) (hreason : Tel.redials true reason = true)
    (hundisturbed : Undisturbed callIndex (r.runs phoneId callIndex e) e)
    (hfair : Fair callIndex (r.runs phoneId callIndex e) e) {n : ℕ}
    (hne : (r.runs phoneId callIndex e n).todo ≠ []) :
    ∃ m, (r.runs phoneId callIndex e m).todo.length <
      (r.runs phoneId callIndex e n).todo.length := by
  by_contra hnone
  have hnot : ∀ m, (r.runs phoneId callIndex e n).todo.length ≤
      (r.runs phoneId callIndex e m).todo.length := fun m =>
    not_lt.mp fun hlt => hnone ⟨m, hlt⟩
  have hstays : ∀ m, n ≤ m →
      (r.runs phoneId callIndex e m).todo = (r.runs phoneId callIndex e n).todo := by
    intro m hle
    have hsuffix := todo_suffix h hreason hundisturbed hle
    exact hsuffix.eq_of_length (Nat.le_antisymm hsuffix.length_le (hnot m))
  obtain ⟨a, todo, htodo⟩ := List.exists_cons_of_ne_nil hne
  rw [htodo] at hstays
  -- Where the thread goes on, the eCall is still to be removed.
  have hgoes : ∀ m, n ≤ m → e m = .redial →
      (r.runs phoneId callIndex e m).manager.Leaving phoneId callIndex ∧
        a = .request (.changeCallState .dialing) := by
    intro m hle he
    rcases goes_runs h hreason hundisturbed he (hstays m hle) with ⟨htodo', -⟩ | ⟨hleaving, -⟩
    · rw [hstays (m + 1) (hle.trans m.le_succ)] at htodo'
      exact absurd htodo' (List.cons_ne_self _ _)
    · exact hleaving
  obtain ⟨first, hfirst, he⟩ := hfair.redial n
  obtain ⟨hleaving, rfl⟩ := hgoes first hfirst he
  obtain ⟨removal, hremoval, heremoval⟩ := hfair.removal first hleaving.pending
  -- The removal is made, and then the eCall is away.
  have haway : (r.runs phoneId callIndex e (removal + 1)).manager.Away phoneId callIndex := by
    have hgood := good_runs h hreason hundisturbed removal
    obtain ⟨hongoing, hended⟩ := hgood.ended (hstays removal (hfirst.trans hremoval))
    rw [runs, heremoval]
    rcases hended with hleaving' | haway'
    · exact hleaving'.removal hongoing
    · exact haway'.step hongoing hgood.redials (hundisturbed.spares removal _ heremoval)
  obtain ⟨last, hlast, helast⟩ := hfair.redial (removal + 1)
  have hle : n ≤ removal + 1 := (hfirst.trans hremoval).trans removal.le_succ
  have haway' := away_runs h hreason hundisturbed (fun m hm => hstays m (hle.trans hm)) haway hlast
  obtain ⟨hleaving', -⟩ := hgoes last (hle.trans hlast) helast
  exact absurd (hleaving'.phones.symm.trans haway'.phones) (List.cons_ne_nil _ _)

theorem returns (h : r.Good phoneId callIndex reason) (hreason : Tel.redials true reason = true)
    (hundisturbed : Undisturbed callIndex (r.runs phoneId callIndex e) e)
    (hfair : Fair callIndex (r.runs phoneId callIndex e) e) :
    ∃ n, (r.runs phoneId callIndex e n).todo = [] := by
  have hall : ∀ length n, (r.runs phoneId callIndex e n).todo.length = length →
      ∃ m, (r.runs phoneId callIndex e m).todo = [] := by
    intro length
    induction length using Nat.strong_induction_on with
    | _ length ih =>
      intro n hn
      by_cases hne : (r.runs phoneId callIndex e n).todo = []
      · exact ⟨n, hne⟩
      · obtain ⟨m, hm⟩ := shrinks h hreason hundisturbed hfair hne
        rw [hn] at hm
        exact ih _ hm m rfl
  exact hall _ 0 rfl

theorem performed (h : r.Good phoneId callIndex reason) (hreason : Tel.redials true reason = true)
    (hundisturbed : Undisturbed callIndex (r.runs phoneId callIndex e) e) (hdone : r.done = [])
    {config : RedialConfig} {timeGap : List Int} (hrounds : Rounds config timeGap r.todo) :
    Performed config timeGap callIndex (r.runs phoneId callIndex e) e where
  safe n := (good_runs h hreason hundisturbed n).safe
  rounds n htodo := by
    have hacts := acts_runs h hreason hundisturbed n
    rw [htodo, hdone, List.append_nil, List.nil_append] at hacts
    rw [hacts]
    exact hrounds
  idle n htodo := by
    have hready := (good_runs h hreason hundisturbed n).ready
    rw [htodo, List.filterMap_nil] at hready
    cases hready with
    | away hongoing hended hahead => cases hahead
    | finished hongoing => exact hongoing
  returns := returns h hreason hundisturbed

end

end Redialing

end

/-! ## From the configuration to the rounds -/

section

variable {ε : Type} (error : ε) (stored : RedialTimeGap) {request : RedialRequest}

/-- A configured redialing, which reads the time gaps once more after the number of attempts. -/
def redialing (request : RedialRequest) (mode : ECallMode) (later between : List RedialRequest)
    (m : CallManager) : Redialing :=
  .start m (redial request.config.cause mode (configureAll error stored (request :: later))
    (configureAll error stored (request :: (later ++ between))))

theorem rounds_redialing (haccepted : Accepted request) (mode : ECallMode)
    {later between : List RedialRequest}
    (h : ∀ r ∈ later ++ between, r.config = request.config → ¬Accepted r) (m : CallManager) :
    Rounds request.config.cause request.timeGap
      (redialing error stored request mode later between m).todo := by
  have hcause : request.config.cause = .callOrig ∨ request.config.cause = .callDrop := by
    have hother := config_ne_other haccepted
    cases hconfig : request.config with
    | callOrig => exact .inl rfl
    | callDrop => exact .inr rfl
    | other => exact absurd hconfig hother
  have hfirst : getConfiguredRedialParameters (configureAll error stored (request :: later))
      request.config.cause = request.timeGap :=
    getConfiguredRedialParameters_later error stored haccepted fun r hr =>
      h r (List.mem_append_left between hr)
  have hsecond := getConfiguredRedialParameters_later error stored haccepted h
  have hrounds : Rounds _ _ (redialing error stored request mode later between m).todo :=
    rounds_redial hcause (hsecond.trans hfirst.symm)
  rw [hfirst] at hrounds
  exact hrounds

theorem redials_reason (config : RedialConfig) : redials true config.reason = true := by
  cases config <;> rfl

/-- The time gaps that are accepted survive the text. As long as none are accepted for the cause
again the redialing performs its rounds where it is left alone, and no redial is announced on
return. What is rejected leaves everything as it is stored. -/
theorem redial_honoured (request : RedialRequest) (mode : ECallMode) :
    ((configureECallRedial error stored request).1 = .configured error ↔ Accepted request) ∧
    (Accepted request →
      convertStringToVector (convertIntVectorToString request.timeGap) = request.timeGap ∧
      ∀ later between : List RedialRequest,
        (∀ r ∈ later ++ between, r.config = request.config → ¬Accepted r) →
        ∀ (phoneId callIndex : Int) (m : CallManager) (e : ℕ → RedialStep),
          m.Begins phoneId callIndex →
          Undisturbed callIndex
            ((redialing error stored request mode later between m).runs phoneId callIndex e) e →
          Performed request.config.cause request.timeGap callIndex
            ((redialing error stored request mode later between m).runs phoneId callIndex e) e) ∧
    (¬Accepted request → (configureECallRedial error stored request).2 = stored) := by
  refine ⟨configured_iff error stored request, ?_, stored_of_not_accepted error stored⟩
  intro haccepted
  refine ⟨convertStringToVector_convertIntVectorToString request, ?_⟩
  intro later between hlater phoneId callIndex m e hbegins hundisturbed
  have hrounds := rounds_redialing error stored haccepted mode hlater m
  have hne : request.timeGap ≠ [] := List.length_pos_iff.mp haccepted.nonempty
  have hgood : (redialing error stored request mode later between m).Good phoneId callIndex
      request.config.cause.reason :=
    ⟨rfl, .away hbegins.ongoing hbegins.ended (ahead_of_rounds hrounds hne), hbegins.redials, nofun⟩
  exact Redialing.performed hgood (redials_reason _) hundisturbed rfl hrounds

end

/-! ## A voice call beside the eCall -/

/-- Two time gaps for a dropped call. -/
def twoGaps : RedialRequest where
  config := .callDrop
  timeGap := [5000, 60000]
  isInt := by decide

theorem accepted_twoGaps : Accepted twoGaps := by
  rw [accepted_iff]
  decide

/-- A voice call with index 1, and an eCall with index 2 that drops. -/
def dropped : CallManager :=
  [.makeCall ⟨1, "5550100", .makeVoiceCall, false⟩, .makeECall ⟨1, "112", .makeECallWithMsd, true⟩,
    .changeCallState 1 .dialing 2, .changeCallState 1 .active 2, .onECallRedial true,
    .changeCallState 1 .ended 2].foldl step new

theorem begins_dropped : dropped.Begins 1 2 :=
  begins_psapCallback (m := [.makeCall ⟨1, "5550100", .makeVoiceCall, false⟩,
    .makeECall ⟨1, "112", .makeECallWithMsd, true⟩, .changeCallState 1 .dialing 2,
    .changeCallState 1 .active 2].foldl step new) rfl rfl

/-- What the redialing of the dropped call does. -/
def twoRounds : List RedialAct :=
  [.sleepFor 5000, .request (.changeCallState .dialing), .sleepFor 1000,
    .request (.onECallRedial true .callDrop), .sleepFor 1000, .request (.changeCallState .ended),
    .sleepFor 60000, .sleepFor 1000, .request (.changeCallState .dialing), .sleepFor 1000,
    .request (.onECallRedial false .maxRedialAttempted), .sleepFor 1000,
    .request (.changeCallState .ended)]

theorem redialing_twoGaps (stored : RedialTimeGap) (m : CallManager) :
    redialing () stored twoGaps .normal [] [] m = .start m twoRounds := by
  have hread : getConfiguredRedialParameters (configureAll () stored [twoGaps]) .callDrop =
      [5000, 60000] :=
    getConfiguredRedialParameters_later () stored accepted_twoGaps fun r hr =>
      absurd hr List.not_mem_nil
  have hattempts : getConfiguredRedialAttempts (configureAll () stored [twoGaps]) .callDrop = 2 :=
    congrArg (fun l : List Int => (l.length : Int)) hread
  unfold redialing redial
  rw [List.append_nil]
  dsimp only [twoGaps, RedialConfigType.cause] at hread hattempts ⊢
  rw [hread, hattempts]
  rfl

/-- The removal of the eCall is made, and the thread goes on six times. -/
def inTurn (n : ℕ) : RedialStep := if n % 7 = 0 then .other (.removal 2) else .redial

theorem todo_inTurn (n : ℕ) : ((Redialing.start dropped twoRounds).runs 1 2 inTurn (16 + n)).todo =
    [] := by
  induction n with
  | zero => rfl
  | succ n ih =>
    rw [← Nat.add_assoc, Redialing.runs]
    cases inTurn (16 + n) with
    | other ev => exact ih
    | redial =>
      rw [Redialing.step_returned ih]
      exact ih

theorem undisturbed_inTurn :
    Undisturbed 2 ((Redialing.start dropped twoRounds).runs 1 2 inTurn) inTurn where
  spares n ev he := by
    unfold inTurn at he
    split_ifs at he
    cases he
    exact fun _ _ _ => .inl rfl
  removed n he htodo := by
    have hfirst : ∀ k < 16, ((Redialing.start dropped twoRounds).runs 1 2 inTurn k).todo.head? =
        some (.request (.changeCallState .dialing)) →
          2 ∉ ((Redialing.start dropped twoRounds).runs 1 2 inTurn k).manager.removals := by
      decide
    rcases lt_or_ge n 16 with hlt | hle
    · exact fun _ => hfirst n hlt htodo
    · obtain ⟨k, rfl⟩ := Nat.exists_eq_add_of_le hle
      rw [todo_inTurn] at htodo
      cases htodo

theorem redial_honoured_twoGaps : Performed .callDrop [5000, 60000] 2
    ((redialing () ⟨[], []⟩ twoGaps .normal [] [] dropped).runs 1 2 inTurn) inTurn := by
  refine ((redial_honoured () ⟨[], []⟩ twoGaps .normal).2.1 accepted_twoGaps).2 [] []
    (fun r hr => absurd hr List.not_mem_nil) 1 2 dropped inTurn begins_dropped ?_
  rw [redialing_twoGaps]
  exact undisturbed_inTurn

/-- The voice call is hung up in the first gap, behind the removal of the eCall. -/
def hungUpInGap (n : ℕ) : RedialStep :=
  [RedialStep.other (.removal 2), .other (.changeCallState 1 .ended 1), .other (.removal 1)].getD n
    .redial

theorem not_performed_hungUpInGap : Accepted twoGaps ∧ dropped.Begins 1 2 ∧
    ∀ stored : RedialTimeGap, ¬Performed .callDrop [5000, 60000] 2
      ((redialing () stored twoGaps .normal [] [] dropped).runs 1 2 hungUpInGap) hungUpInGap := by
  refine ⟨accepted_twoGaps, begins_dropped, fun stored h => ?_⟩
  have hsafe := h.safe 5
  rw [redialing_twoGaps] at hsafe
  revert hsafe
  decide

end Tel

end SatComm
