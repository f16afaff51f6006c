import SatComm.Tel.Indices

/-!
# Removal of ended calls

Each time a call is ended a task is left behind that will remove the first call with its index.
By then another call may have the index, or the call may have been given another state. A removal
finds an ended call along every run that keeps the indices with a removal ahead to the calls that
were ended: they are not given to new calls, and their calls get no other state.
-/

namespace SatComm

namespace Tel

open Runs

namespace CallManager

/-! ## Call objects -/

/-- The calls that the dialer has a pointer to. -/
def known (m : CallManager) : List CallInfo := m.calls ++ m.redialECallCache.toList

/-- Equal addresses are the same object. -/
structure Shared (m : CallManager) : Prop where
  eq_of_address : ∀ a ∈ m.known, ∀ b ∈ m.known, a.address = b.address → a = b
  address_lt : ∀ call ∈ m.known, call.address < m.allocated

theorem address_write (address : Nat) (action : CallState) (call : CallInfo) :
    (call.write address action).address = call.address := by
  unfold CallInfo.write
  split_ifs <;> rfl

theorem known_writeCallState (m : CallManager) (address : Nat) (action : CallState) :
    (m.writeCallState address action).known = m.known.map (CallInfo.write address action) := by
  cases hcache : m.redialECallCache <;> simp [known, writeCallState, hcache]

theorem Shared.subset {m m' : CallManager} (h : m.Shared) (hknown : m'.known ⊆ m.known)
    (hallocated : m'.allocated = m.allocated) : m'.Shared where
  eq_of_address a ha b hb := h.eq_of_address a (hknown ha) b (hknown hb)
  address_lt call hcall := hallocated ▸ h.address_lt call (hknown hcall)

theorem Shared.writeCallState {m : CallManager} (h : m.Shared) (address : Nat)
    (action : CallState) : (m.writeCallState address action).Shared := by
  constructor
  · intro a ha b hb hab
    rw [known_writeCallState, List.mem_map] at ha hb
    obtain ⟨x, hx, rfl⟩ := ha
    obtain ⟨y, hy, rfl⟩ := hb
    rw [address_write, address_write] at hab
    rw [h.eq_of_address x hx y hy hab]
  · intro a ha
    rw [known_writeCallState, List.mem_map] at ha
    obtain ⟨x, hx, rfl⟩ := ha
    rw [address_write]
    exact h.address_lt x hx

theorem Shared.findCallAndUpdateCallState {m : CallManager} (h : m.Shared) (index : Int)
    (action : CallState) (phoneId : Int) :
    (m.findCallAndUpdateCallState index action phoneId).Shared := by
  unfold CallManager.findCallAndUpdateCallState
  split
  · exact h.writeCallState _ action
  · exact h

theorem Shared.triggerCallInfoChangeEvent {m : CallManager} (h : m.Shared) (index phoneId : Int) :
    (m.triggerCallInfoChangeEvent index phoneId).Shared := by
  unfold CallManager.triggerCallInfoChangeEvent
  repeat' split
  all_goals exact h.subset (List.Subset.refl _) rfl

theorem Shared.reinsert {m : CallManager} (h : m.Shared) : m.reinsert.Shared := by
  refine h.subset ?_ rfl
  intro call hcall
  simpa [known, CallManager.reinsert, or_assoc] using hcall

theorem Shared.emplaceBack {m : CallManager} (h : m.Shared) {call : CallInfo}
    (haddress : call.address = m.allocated) : (m.emplaceBack call).Shared := by
  have hknown : ∀ a ∈ (m.emplaceBack call).known, a = call ∨ a ∈ m.known := by
    intro a ha
    simp only [known, CallManager.emplaceBack, List.mem_append, List.mem_singleton] at ha ⊢
    tauto
  have hne : ∀ a ∈ m.known, a.address ≠ m.allocated := fun a ha => Nat.ne_of_lt (h.address_lt a ha)
  constructor
  · intro a ha b hb hab
    rcases hknown a ha with rfl | hold <;> rcases hknown b hb with rfl | hold'
    · rfl
    · exact absurd (hab.symm.trans haddress) (hne b hold')
    · exact absurd (hab.trans haddress) (hne a hold)
    · exact h.eq_of_address a hold b hold' hab
  · intro a ha
    rcases hknown a ha with rfl | hold
    · exact haddress ▸ Nat.lt_succ_self _
    · exact Nat.lt_succ_of_lt (h.address_lt a hold)

theorem Shared.findAndRemoveMatchingCall {m : CallManager} (h : m.Shared) (callIndex : Int) :
    (m.findAndRemoveMatchingCall callIndex).Shared := by
  unfold CallManager.findAndRemoveMatchingCall
  split
  · rename_i found hfound
    refine h.subset ?_ rfl
    intro call hcall
    rcases List.mem_append.mp hcall with hmem | hmem
    · exact List.mem_append_left _ (List.mem_of_mem_eraseP hmem)
    · simp only [] at hmem
      split_ifs at hmem with hongoing
      · rw [Option.toList_some, List.mem_singleton] at hmem
        exact hmem ▸ List.mem_append_left _ (List.mem_of_find?_eq_some hfound)
      · exact List.mem_append_right _ hmem
  · exact h.subset (List.Subset.refl _) rfl

/-! ## Removals ahead -/

/-- A call whose index is looked for by a removal task has ended. -/
structure Settled (m : CallManager) : Prop extends m.Shared where
  nodup : m.indices.Nodup
  ended : ∀ call ∈ m.calls, call.index ∈ m.removals → call.callState = .ended

theorem Settled.eq_of_index {m : CallManager} (h : m.Settled) {a b : CallInfo}
    (ha : a ∈ m.calls) (hb : b ∈ m.calls) (hab : a.index = b.index) : a = b :=
  List.inj_on_of_nodup_map h.nodup ha hb hab

/-- The call is given another state than ended while a removal of its index is ahead. -/
def Revives (m : CallManager) : Event → Prop
  | .changeCallState phoneId state index =>
    state ≠ .ended ∧ (m.findMatchingCall phoneId index).isSome ∧ index ∈ m.removals ∧
      (m.eCallRedialIsOngoing ∧ state = .dialing → m.callEndOperationCompleted)
  | .resumeRedial phoneId index =>
    (phoneId, index) ∈ m.redials ∧ m.callEndOperationCompleted ∧
      (m.findMatchingCall phoneId index).isSome ∧ index ∈ m.removals
  | _ => False

/-- A call that is added takes an index that no call has and no removal task looks for, and no
call with a removal ahead is revived. -/
structure Reserves (m : CallManager) (e : Event) : Prop where
  enters : m.Enters e →
    m.setCallIndexForNewCall ∉ m.indices ∧ m.setCallIndexForNewCall ∉ m.removals
  redials : m.Redials e →
    ∀ call ∈ m.redialECallCache, call.index ∉ m.indices ∧ call.index ∉ m.removals
  revives : ¬ m.Revives e

instance (m : CallManager) : DecidablePred m.Enters
  | .makeCall _ | .handleIncomingCallRequest _ _ => inferInstanceAs (Decidable (_ = true))
  | .makeECall _ => inferInstanceAs (Decidable (¬ (_ = true) ∧ _ = true))
  | .cleanUpService | .changeCallState .. | .resumeRedial .. | .handleHangupRequest .. |
    .changeRttModeOfCall .. | .onECallRedial _ | .removal _ => inferInstanceAs (Decidable False)

instance (m : CallManager) : DecidablePred m.Redials
  | .changeCallState _ _ _ => inferInstanceAs (Decidable (_ ∧ _ ∧ _))
  | .resumeRedial _ _ => inferInstanceAs (Decidable (_ ∧ _))
  | .cleanUpService | .makeCall _ | .makeECall _ | .handleIncomingCallRequest .. |
    .handleHangupRequest .. | .changeRttModeOfCall .. | .onECallRedial _ | .removal _ =>
    inferInstanceAs (Decidable False)

instance (m : CallManager) : DecidablePred m.Revives
  | .changeCallState _ _ _ => inferInstanceAs (Decidable (_ ∧ _ ∧ _ ∧ (_ → _)))
  | .resumeRedial _ _ => inferInstanceAs (Decidable (_ ∧ _ ∧ _ ∧ _))
  | .cleanUpService | .makeCall _ | .makeECall _ | .handleIncomingCallRequest .. |
    .handleHangupRequest .. | .changeRttModeOfCall .. | .onECallRedial _ | .removal _ =>
    inferInstanceAs (Decidable False)

instance (m : CallManager) (e : Event) : Decidable (m.Reserves e) :=
  decidable_of_iff
    ((m.Enters e →
        m.setCallIndexForNewCall ∉ m.indices ∧ m.setCallIndexForNewCall ∉ m.removals) ∧
      (m.Redials e →
        ∀ call ∈ m.redialECallCache, call.index ∉ m.indices ∧ call.index ∉ m.removals) ∧
      ¬ m.Revives e)
    ⟨fun h => ⟨h.1, h.2.1, h.2.2⟩, fun h => ⟨h.enters, h.redials, h.revives⟩⟩

/-- A removal task finds an ended call or none. -/
def RemovesEnded (m : CallManager) : Event → Prop
  | .removal callIndex =>
    callIndex ∈ m.removals → ∀ call ∈ m.matchingCall callIndex, call.callState = .ended
  | _ => True

theorem Settled.removesEnded {m : CallManager} (h : m.Settled) (e : Event) : m.RemovesEnded e := by
  cases e with
  | removal callIndex =>
    intro hpending call hcall
    have hindex : call.index = callIndex := by simpa using List.find?_some hcall
    exact h.ended call (List.mem_of_find?_eq_some hcall) (hindex ▸ hpending)
  | _ => trivial

theorem mem_of_find {m : CallManager} {index phoneId : Int} {call : CallInfo}
    (h : m.calls.find? (CallInfo.find index phoneId) = some call) :
    call ∈ m.calls ∧ call.index = index ∧ call.phoneId = phoneId := by
  have hfind := List.find?_some h
  rw [CallInfo.find, Bool.and_eq_true, beq_iff_eq, beq_iff_eq] at hfind
  exact ⟨List.mem_of_find?_eq_some h, hfind⟩

theorem Settled.findCallAndUpdateCallState {m : CallManager} (h : m.Settled) {index : Int}
    {action : CallState} {phoneId : Int}
    (hrevives : action = .ended ∨ (m.findMatchingCall phoneId index = none) ∨
      index ∉ m.removals) :
    (m.findCallAndUpdateCallState index action phoneId).Settled := by
  refine ⟨h.toShared.findCallAndUpdateCallState index action phoneId, by simpa using h.nodup, ?_⟩
  unfold CallManager.findCallAndUpdateCallState
  split
  · rename_i found hfound
    obtain ⟨hmem, hindex, -⟩ := mem_of_find hfound
    intro call hcall hpending
    obtain ⟨old, hold, rfl⟩ := List.mem_map.mp hcall
    rw [index_write] at hpending
    by_cases haddress : old.address = found.address
    · have heq : old = found := h.eq_of_address old (List.mem_append_left _ hold) found
        (List.mem_append_left _ hmem) haddress
      rw [CallInfo.write, if_pos haddress]
      rcases hrevives with hended | hnone | hfree
      · exact hended
      · exact absurd (hfound.symm.trans hnone) (by simp)
      · rw [heq, hindex] at hpending
        exact absurd hpending hfree
    · rw [CallInfo.write, if_neg haddress]
      exact h.ended old hold hpending
  · exact h.ended

theorem Settled.triggerCallInfoChangeEvent {m : CallManager} (h : m.Settled)
    (index phoneId : Int) : (m.triggerCallInfoChangeEvent index phoneId).Settled := by
  refine ⟨h.toShared.triggerCallInfoChangeEvent index phoneId, by simpa using h.nodup, ?_⟩
  unfold CallManager.triggerCallInfoChangeEvent
  split
  · rename_i found hfound
    obtain ⟨hmem, -⟩ := mem_of_find hfound
    split_ifs with hended
    · intro call hcall hpending
      rcases List.mem_append.mp hpending with hpending | hpending
      · exact h.ended call hcall hpending
      · rw [h.eq_of_index hcall hmem (List.mem_singleton.mp hpending)]
        exact hended
    · exact h.ended
  · exact h.ended

theorem Settled.update {m : CallManager} (h : m.Settled) {phoneId : Int} {state : CallState}
    {index : Int}
    (hrevives : state = .ended ∨ (m.findMatchingCall phoneId index = none) ∨
      index ∉ m.removals) : (m.update phoneId state index).Settled :=
  (h.findCallAndUpdateCallState hrevives).triggerCallInfoChangeEvent index phoneId

theorem Settled.emplaceBack {m : CallManager} (h : m.Settled) {call : CallInfo}
    (haddress : call.address = m.allocated) (hindex : call.index ∉ m.indices)
    (hfree : call.index ∉ m.removals) : (m.emplaceBack call).Settled := by
  refine ⟨h.toShared.emplaceBack haddress, ?_, ?_⟩
  · have hindices : (m.emplaceBack call).indices = m.indices.concat call.index := by
      simp [indices, CallManager.emplaceBack]
    rw [hindices]
    exact List.Nodup.concat hindex h.nodup
  · intro other hother hpending
    rcases List.mem_append.mp hother with hmem | hmem
    · exact h.ended other hmem hpending
    · rw [List.mem_singleton.mp hmem] at hpending
      exact absurd hpending hfree

theorem Settled.reinsert {m : CallManager} (h : m.Settled)
    (hcache : ∀ call ∈ m.redialECallCache, call.index ∉ m.indices ∧ call.index ∉ m.removals)
    (redials : List (Int × Int)) :
    ({ m.reinsert with redials := redials } : CallManager).Settled := by
  refine ⟨h.toShared.reinsert.subset (List.Subset.refl _) rfl, ?_, ?_⟩
  · cases hkept : m.redialECallCache with
    | none => simpa [indices, CallManager.reinsert, hkept] using h.nodup
    | some kept =>
      have hindices : m.reinsert.indices = m.indices.concat kept.index := by
        simp [indices, CallManager.reinsert, hkept]
      exact hindices ▸ List.Nodup.concat (hcache kept hkept).1 h.nodup
  · intro call hcall hpending
    rcases List.mem_append.mp hcall with hmem | hmem
    · exact h.ended call hmem hpending
    · exact absurd hpending (hcache call (Option.mem_toList.mp hmem)).2

/-- After the kept call is back, a call that dials and has a removal ahead was there before. -/
theorem findMatchingCall_of_reinsert {m : CallManager} {phoneId index : Int}
    (hcache : ∀ call ∈ m.redialECallCache, call.index ∉ m.removals)
    (hpending : index ∈ m.removals) (redials : List (Int × Int)) :
    ({ m.reinsert with redials := redials } : CallManager).findMatchingCall phoneId index =
      m.findMatchingCall phoneId index := by
  have hnone : m.redialECallCache.toList.find? (CallInfo.find index phoneId) = none := by
    rw [List.find?_eq_none]
    intro call hcall hfind
    have hindex : call.index = index := by
      rw [CallInfo.find, Bool.and_eq_true, beq_iff_eq] at hfind
      exact hfind.1
    exact hcache call (Option.mem_toList.mp hcall) (hindex ▸ hpending)
  show (m.calls ++ m.redialECallCache.toList).find? _ = m.calls.find? _
  rw [List.find?_append, hnone, Option.or_none]

theorem Settled.change {m m' : CallManager} {e : Event} (h : m.Settled) (hchange : m.Change e m')
    (hrevives : ¬ m.Revives e) : m'.Settled := by
  cases hchange with
  | none => exact h
  | cleanUpService =>
    exact ⟨h.toShared.subset (List.subset_append_right _ _) rfl, List.nodup_nil, by simp⟩
  | update phoneId state index hdialing =>
    apply h.update
    by_contra hnot
    push Not at hnot
    obtain ⟨hended, hfound, hpending⟩ := hnot
    exact hrevives ⟨hended, Option.isSome_iff_ne_none.mpr hfound, hpending,
      fun hwaits => (hdialing hwaits).elim⟩
  | wait => exact ⟨h.toShared.subset (List.Subset.refl _) rfl, h.nodup, h.ended⟩
  | handleHangupRequest => exact h.findCallAndUpdateCallState (.inl rfl)
  | changeRttModeOfCall index phoneId => exact h.triggerCallInfoChangeEvent index phoneId
  | onECallRedial => exact ⟨h.toShared.subset (List.Subset.refl _) rfl, h.nodup, h.ended⟩
  | removal callIndex =>
    refine ⟨h.toShared.findAndRemoveMatchingCall callIndex,
      h.nodup.sublist (m.indices_findAndRemoveMatchingCall callIndex), ?_⟩
    unfold CallManager.findAndRemoveMatchingCall
    split
    · intro call hcall hpending
      exact h.ended call (List.mem_of_mem_eraseP hcall) (List.mem_of_mem_erase hpending)
    · intro call hcall hpending
      exact h.ended call hcall (List.mem_of_mem_erase hpending)

/-- The call that dials after a call was put back is not one with a removal ahead. -/
theorem Settled.redial {m : CallManager} {e : Event} (h : m.Settled) (hreserves : m.Reserves e)
    (hredials : m.Redials e) : (m.step e).Settled := by
  have hcache := hreserves.redials hredials
  have hdials : ∀ phoneId index, (m.findMatchingCall phoneId index = none ∨ index ∉ m.removals) →
      ∀ redials, (({ m.reinsert with redials := redials } : CallManager).update phoneId .dialing
        index).Settled := by
    intro phoneId index hfree redials
    apply (h.reinsert hcache redials).update
    by_cases hpending : index ∈ m.removals
    · refine .inr (.inl ?_)
      rw [findMatchingCall_of_reinsert (fun call hcall => (hcache call hcall).2) hpending]
      exact hfree.resolve_right (not_not.mpr hpending)
    · exact .inr (.inr hpending)
  cases e with
  | changeCallState phoneId state index =>
    obtain ⟨hongoing, rfl, hcompleted⟩ := hredials
    rw [step, changeCallState, if_pos ⟨hongoing, rfl⟩, if_pos hcompleted]
    refine hdials phoneId index ?_ m.redials
    by_contra hnot
    push Not at hnot
    exact hreserves.revives ⟨by decide, Option.isSome_iff_ne_none.mpr hnot.1, hnot.2,
      fun _ => hcompleted⟩
  | resumeRedial phoneId index =>
    obtain ⟨hwaits, hcompleted⟩ := hredials
    rw [step, resumeRedial, if_pos ⟨hwaits, hcompleted⟩]
    refine hdials phoneId index ?_ _
    by_contra hnot
    push Not at hnot
    exact hreserves.revives ⟨hwaits, hcompleted, Option.isSome_iff_ne_none.mpr hnot.1, hnot.2⟩
  | _ => exact hredials.elim

theorem Settled.step {m : CallManager} {e : Event} (h : m.Settled) (hreserves : m.Reserves e) :
    (m.step e).Settled := by
  by_cases henters : m.Enters e
  · obtain ⟨call, haddress, hindex, hstep⟩ := henters.step_eq
    obtain ⟨hunused, hfree⟩ := hreserves.enters henters
    rw [hstep]
    exact h.emplaceBack haddress (hindex ▸ hunused) (hindex ▸ hfree)
  · by_cases hredials : m.Redials e
    · exact h.redial hreserves hredials
    · exact h.change (change_step henters hredials) hreserves.revives

theorem settled_new : new.Settled := by
  refine ⟨⟨?_, ?_⟩, List.nodup_nil, ?_⟩ <;> simp [new, known]

/-- Along a run that gives no index with a removal ahead away and revives no such call, every
removal finds an ended call. -/
theorem removesEnded_of_reserves (es : List Event) (h : Along step Reserves new es) :
    Along step RemovesEnded new es := by
  have hkeep : ∀ m e, Settled m → Reserves m e → Settled (m.step e) :=
    fun m e hm hreserves => hm.step hreserves
  exact h.of_invariant Settled hkeep (fun m e hm _ => hm.removesEnded e) settled_new

/-- An eCall that the state machine ends and the task removes, and a call after it. -/
def endedOnce : List Event :=
  [.makeECall ⟨1, "112", .makeECallWithMsd, true⟩, .changeCallState 1 .dialing 1,
    .changeCallState 1 .active 1, .changeCallState 1 .ended 1, .removal 1,
    .makeCall ⟨1, "5550100", .makeVoiceCall, false⟩]

theorem removesEnded_endedOnce :
    Along step Reserves new endedOnce ∧ Along step RemovesEnded new endedOnce :=
  have hreserves : Along step Reserves new endedOnce := by decide
  ⟨hreserves, removesEnded_of_reserves endedOnce hreserves⟩

/-- A hangup of an eCall whose MSD is being decoded: `DecodeMSD::onEvent` and then
`PSAPCallback::onEnter` end the call. A new call gets the index between the two removals. -/
def endedTwice : List Event :=
  [.makeECall ⟨1, "112", .makeECallWithMsd, true⟩, .changeCallState 1 .dialing 1,
    .changeCallState 1 .alerting 1, .changeCallState 1 .active 1, .changeCallState 1 .ended 1,
    .changeCallState 1 .ended 1, .removal 1, .makeCall ⟨1, "5550100", .makeVoiceCall, false⟩,
    .removal 1]

theorem not_removesEnded_endedTwice : ¬ Along step RemovesEnded new endedTwice := by
  intro h
  have hlast : RemovesEnded ((endedTwice.take 8).foldl step new) (.removal 1) :=
    ((along_append new (endedTwice.take 8) [.removal 1]).mp h).2.1
  have hended := hlast (by decide) ⟨1, .idle, 1, .outgoing, "5550100", 1, false, false, false⟩
    (by decide)
  cases hended

end CallManager

end Tel

end SatComm
