import SatComm.Tel.Removal

/-!
# The redial handshake

A redial waits until the removal of the ended eCall has put the call into `redialECallCache_`, and
puts it back into the call list. `callEndOperationCompleted_` tells that a removal was made, of
any call and whether the call was kept or not, and only a redial clears it. So a redial that finds
it set from before may put back a null pointer, or an object that the list still has. Neither
happens along a run in which a redial is announced only while the flag is clear, and is not called
off while a thread waits for it.
-/

namespace SatComm

namespace Tel

open Runs

namespace CallManager

def addresses (m : CallManager) : List Nat := m.calls.map CallInfo.address

/-- The object that `redialECallCache_` points to. -/
def keptAddress (m : CallManager) : Option Nat := m.redialECallCache.map CallInfo.address

/-- `calls_` when the kept pointer has just been put back, null pointers included. -/
def reinserted (m : CallManager) : List (Option Nat) := m.addresses.map some ++ [m.keptAddress]

/-- The list has no null pointer and no object twice, when the kept pointer has been put back and
after the step. -/
def KeepsObjects (m : CallManager) (e : Event) : Prop :=
  (m.Redials e → none ∉ m.reinserted ∧ m.reinserted.Nodup) ∧ (m.step e).addresses.Nodup

/-- A redial is announced while no removal has been made, and not called off while a thread
waits. -/
def Announces (m : CallManager) : Event → Prop
  | .onECallRedial true => m.eCallRedialIsOngoing ∨ ¬ m.callEndOperationCompleted
  | .onECallRedial false => m.redials = []
  | _ => True

instance (m : CallManager) : DecidablePred m.Announces
  | .onECallRedial true => inferInstanceAs (Decidable (_ ∨ ¬ _))
  | .onECallRedial false => inferInstanceAs (Decidable (_ = _))
  | .cleanUpService | .makeCall _ | .makeECall _ | .handleIncomingCallRequest .. |
    .changeCallState .. | .resumeRedial .. | .handleHangupRequest .. | .changeRttModeOfCall .. |
    .removal _ => inferInstanceAs (Decidable True)

/-- A removal that a redial can go on after has kept its call, which the list no longer has. -/
structure Paired (m : CallManager) : Prop where
  nodup : m.addresses.Nodup
  address_lt : ∀ address ∈ m.addresses ++ m.keptAddress.toList, address < m.allocated
  kept : m.eCallRedialIsOngoing → m.callEndOperationCompleted →
    ∃ address ∈ m.keptAddress, address ∉ m.addresses
  waits : m.redials ≠ [] → m.eCallRedialIsOngoing

/-! ## Steps that leave the objects alone -/

structure Alike (m m' : CallManager) : Prop where
  addresses : m'.addresses = m.addresses
  keptAddress : m'.keptAddress = m.keptAddress
  allocated : m'.allocated = m.allocated
  ongoing : m'.eCallRedialIsOngoing = m.eCallRedialIsOngoing
  completed : m'.callEndOperationCompleted = m.callEndOperationCompleted
  redials : m'.redials = m.redials

theorem Alike.trans {m m' m'' : CallManager} (h : Alike m m') (h' : Alike m' m'') : Alike m m'' where
  addresses := h'.addresses.trans h.addresses
  keptAddress := h'.keptAddress.trans h.keptAddress
  allocated := h'.allocated.trans h.allocated
  ongoing := h'.ongoing.trans h.ongoing
  completed := h'.completed.trans h.completed
  redials := h'.redials.trans h.redials

theorem Alike.paired {m m' : CallManager} (h : Alike m m') (hm : m.Paired) : m'.Paired := by
  refine ⟨h.addresses ▸ hm.nodup, ?_, ?_, ?_⟩
  · rw [h.addresses, h.keptAddress, h.allocated]
    exact hm.address_lt
  · rw [h.addresses, h.keptAddress, h.ongoing, h.completed]
    exact hm.kept
  · rw [h.redials, h.ongoing]
    exact hm.waits

theorem alike_writeCallState (m : CallManager) (address : Nat) (action : CallState) :
    Alike m (m.writeCallState address action) := by
  have hwrite : CallInfo.address ∘ CallInfo.write address action = CallInfo.address :=
    funext (address_write address action)
  refine ⟨?_, ?_, rfl, rfl, rfl, rfl⟩
  · rw [addresses, addresses, writeCallState, List.map_map, hwrite]
  · rw [keptAddress, keptAddress, writeCallState, Option.map_map, hwrite]

theorem alike_findCallAndUpdateCallState (m : CallManager) (index : Int) (action : CallState)
    (phoneId : Int) : Alike m (m.findCallAndUpdateCallState index action phoneId) := by
  unfold findCallAndUpdateCallState
  split
  · exact alike_writeCallState m _ action
  · exact ⟨rfl, rfl, rfl, rfl, rfl, rfl⟩

theorem alike_triggerCallInfoChangeEvent (m : CallManager) (index phoneId : Int) :
    Alike m (m.triggerCallInfoChangeEvent index phoneId) := by
  unfold triggerCallInfoChangeEvent
  repeat' split
  all_goals exact ⟨rfl, rfl, rfl, rfl, rfl, rfl⟩

theorem alike_update (m : CallManager) (phoneId : Int) (state : CallState) (index : Int) :
    Alike m (m.update phoneId state index) :=
  (alike_findCallAndUpdateCallState m index state phoneId).trans
    (alike_triggerCallInfoChangeEvent _ index phoneId)

/-! ## Steps that add or remove a call -/

theorem Paired.emplaceBack {m : CallManager} (h : m.Paired) {call : CallInfo}
    (haddress : call.address = m.allocated) : (m.emplaceBack call).Paired := by
  have hfresh : ∀ address ∈ m.addresses ++ m.keptAddress.toList, address ≠ call.address :=
    fun address hmem => haddress ▸ Nat.ne_of_lt (h.address_lt address hmem)
  have haddresses : (m.emplaceBack call).addresses = m.addresses ++ [call.address] := by
    simp [addresses, CallManager.emplaceBack]
  refine ⟨?_, ?_, ?_, h.waits⟩
  · rw [haddresses, ← List.concat_eq_append]
    exact List.Nodup.concat (fun hmem => hfresh _ (List.mem_append_left _ hmem) rfl) h.nodup
  · intro address hmem
    rw [haddresses, List.append_assoc, List.mem_append, List.mem_append, List.mem_singleton] at hmem
    show address < m.allocated + 1
    rcases hmem with hmem | rfl | hmem
    · exact Nat.lt_succ_of_lt (h.address_lt address (List.mem_append_left _ hmem))
    · exact haddress ▸ Nat.lt_succ_self _
    · exact Nat.lt_succ_of_lt (h.address_lt address (List.mem_append_right _ hmem))
  · intro hongoing hcompleted
    obtain ⟨address, hkept, hnot⟩ := h.kept hongoing hcompleted
    refine ⟨address, hkept, ?_⟩
    rw [haddresses, List.mem_append, List.mem_singleton]
    rintro (hmem | heq)
    · exact hnot hmem
    · exact hfresh address (List.mem_append_right _ (Option.mem_toList.mpr hkept)) heq

theorem exists_of_matchingCall {m : CallManager} {callIndex : Int} {found : CallInfo}
    (h : m.matchingCall callIndex = some found) :
    ∃ before after, m.calls = before ++ found :: after ∧
      (m.calls.eraseP fun call => call.index == callIndex) = before ++ after := by
  obtain ⟨hindex, before, after, hcalls, hbefore⟩ := List.find?_eq_some_iff_append.mp h
  refine ⟨before, after, hcalls, ?_⟩
  rw [hcalls, List.eraseP_append_right _ fun call hcall => by simpa using hbefore call hcall]
  simp only [List.eraseP_cons, hindex, cond_true]

/-- The call that a removal erases while a redial is announced is kept. -/
theorem Paired.findAndRemoveMatchingCall {m : CallManager} (h : m.Paired) (callIndex : Int) :
    (m.findAndRemoveMatchingCall callIndex).Paired := by
  unfold CallManager.findAndRemoveMatchingCall
  split
  · rename_i found hfound
    obtain ⟨before, after, hcalls, herased⟩ := exists_of_matchingCall hfound
    have haddresses : m.addresses =
        before.map CallInfo.address ++ found.address :: after.map CallInfo.address := by
      simp [addresses, hcalls]
    have hsublist : ((before ++ after).map CallInfo.address).Sublist m.addresses := by
      rw [haddresses, List.map_append]
      exact List.Sublist.append_left (List.sublist_cons_self _ _) _
    rw [herased]
    refine ⟨hsublist.nodup h.nodup, ?_, ?_, h.waits⟩
    · intro address hmem
      rcases List.mem_append.mp hmem with hmem | hmem
      · exact h.address_lt address (List.mem_append_left _ (hsublist.subset hmem))
      · rw [keptAddress] at hmem
        dsimp only at hmem
        split_ifs at hmem with hongoing
        · rw [Option.map_some, Option.toList_some, List.mem_singleton] at hmem
          apply h.address_lt address
          simp [haddresses, hmem]
        · exact h.address_lt address (List.mem_append_right _ hmem)
    · intro hongoing _
      refine ⟨found.address, ?_, ?_⟩
      · rw [keptAddress]
        dsimp only at hongoing ⊢
        rw [if_pos hongoing]
        rfl
      · have hnodup := h.nodup
        rw [haddresses, List.nodup_middle, ← List.map_append] at hnodup
        exact (List.nodup_cons.mp hnodup).1
  · exact ⟨h.nodup, h.address_lt, h.kept, h.waits⟩

/-- The call that is put back is not in the list. -/
theorem Paired.reinserted {m : CallManager} {e : Event} (h : m.Paired) (hredials : m.Redials e) :
    none ∉ m.reinserted ∧ m.reinserted.Nodup ∧ m.reinsert.addresses.Nodup ∧
      ∀ address ∈ m.reinsert.addresses, address ∈ m.addresses ++ m.keptAddress.toList := by
  obtain ⟨address, hkept, hnot⟩ : ∃ address ∈ m.keptAddress, address ∉ m.addresses := by
    cases e with
    | changeCallState phoneId state index => exact h.kept hredials.1 hredials.2.2
    | resumeRedial phoneId index =>
      exact h.kept (h.waits (List.ne_nil_of_mem hredials.1)) hredials.2
    | _ => exact hredials.elim
  have hkept' : m.keptAddress = some address := hkept
  have haddresses : m.reinsert.addresses = m.addresses ++ m.keptAddress.toList := by
    rw [addresses, CallManager.reinsert, List.map_append, keptAddress]
    cases m.redialECallCache <;> rfl
  have hnodup : (m.addresses ++ [address]).Nodup :=
    List.concat_eq_append ▸ List.Nodup.concat hnot h.nodup
  refine ⟨?_, ?_, ?_, ?_⟩
  · simp [CallManager.reinserted, hkept']
  · rw [CallManager.reinserted, hkept', ← List.map_singleton, ← List.map_append]
    exact hnodup.map fun _ _ => Option.some.inj
  · rw [haddresses, hkept']
    exact hnodup
  · rw [haddresses]
    exact fun _ hmem => hmem

theorem Paired.redial {m : CallManager} {e : Event} (h : m.Paired) (hredials : m.Redials e) :
    (m.step e).Paired := by
  obtain ⟨-, -, hnodup, hsubset⟩ := h.reinserted hredials
  have hback : ∀ redials, (redials ≠ [] → m.eCallRedialIsOngoing) →
      ({ m.reinsert with redials := redials } : CallManager).Paired := by
    intro redials hwaits
    refine ⟨hnodup, fun address hmem => ?_, fun _ hcompleted => (nomatch hcompleted), hwaits⟩
    rcases List.mem_append.mp hmem with hmem | hmem
    · exact h.address_lt address (hsubset address hmem)
    · exact h.address_lt address (List.mem_append_right _ hmem)
  cases e with
  | changeCallState phoneId state index =>
    obtain ⟨hongoing, rfl, hcompleted⟩ := hredials
    rw [step, changeCallState, if_pos ⟨hongoing, rfl⟩, if_pos hcompleted]
    exact (alike_update _ phoneId .dialing index).paired (hback m.redials h.waits)
  | resumeRedial phoneId index =>
    obtain ⟨hwaits, hcompleted⟩ := hredials
    rw [step, resumeRedial, if_pos ⟨hwaits, hcompleted⟩]
    refine (alike_update _ phoneId .dialing index).paired (hback _ fun hne => ?_)
    exact h.waits (List.ne_nil_of_mem hwaits)
  | _ => exact hredials.elim

/-- A thread waits for a removal, or the state of a call changes. -/
theorem Paired.changeCallState {m : CallManager} (h : m.Paired) {phoneId : Int}
    {state : CallState} {index : Int} (hredials : ¬ m.Redials (.changeCallState phoneId state index)) :
    (m.changeCallState phoneId state index).Paired := by
  unfold CallManager.changeCallState
  split_ifs with hdialing hcompleted
  · exact absurd ⟨hdialing.1, hdialing.2, hcompleted⟩ hredials
  · exact ⟨h.nodup, h.address_lt, h.kept, fun _ => hdialing.1⟩
  · exact (alike_update m phoneId state index).paired h

theorem Paired.onECallRedial {m : CallManager} (h : m.Paired) {willRedial : Bool}
    (hannounces : m.Announces (.onECallRedial willRedial)) :
    (m.onECallRedial willRedial).Paired := by
  cases willRedial with
  | true =>
    refine ⟨h.nodup, h.address_lt, fun _ hcompleted => ?_, fun _ => rfl⟩
    exact h.kept (hannounces.resolve_right (not_not.mpr hcompleted)) hcompleted
  | false =>
    exact ⟨h.nodup, h.address_lt, fun hongoing => (nomatch hongoing),
      fun hwaits => absurd hannounces hwaits⟩

theorem Paired.change {m m' : CallManager} {e : Event} (h : m.Paired) (hchange : m.Change e m')
    (hstate : ∀ phoneId state index, e ≠ .changeCallState phoneId state index)
    (hannounces : m.Announces e) : m'.Paired := by
  cases hchange with
  | none => exact h
  | cleanUpService =>
    refine ⟨List.nodup_nil, fun address hmem => ?_, fun hongoing hcompleted => ?_, h.waits⟩
    · exact h.address_lt address (List.mem_append_right _ hmem)
    · obtain ⟨address, hkept, -⟩ := h.kept hongoing hcompleted
      exact ⟨address, hkept, List.not_mem_nil⟩
  | update phoneId state index => exact absurd rfl (hstate phoneId state index)
  | wait phoneId index => exact absurd rfl (hstate phoneId .dialing index)
  | handleHangupRequest phoneId callIndex =>
    exact (alike_findCallAndUpdateCallState m callIndex .ended phoneId).paired h
  | changeRttModeOfCall index phoneId =>
    exact (alike_triggerCallInfoChangeEvent m index phoneId).paired h
  | onECallRedial willRedial => exact h.onECallRedial hannounces
  | removal callIndex => exact h.findAndRemoveMatchingCall callIndex

theorem Paired.step {m : CallManager} {e : Event} (h : m.Paired) (hannounces : m.Announces e) :
    (m.step e).Paired := by
  by_cases henters : m.Enters e
  · obtain ⟨call, haddress, -, hstep⟩ := henters.step_eq
    rw [hstep]
    exact h.emplaceBack haddress
  by_cases hredials : m.Redials e
  · exact h.redial hredials
  by_cases hstate : ∃ phoneId state index, e = .changeCallState phoneId state index
  · obtain ⟨phoneId, state, index, rfl⟩ := hstate
    exact h.changeCallState hredials
  · refine h.change (change_step henters hredials) (fun phoneId state index heq => ?_) hannounces
    exact hstate ⟨phoneId, state, index, heq⟩

theorem Paired.keepsObjects {m : CallManager} {e : Event} (h : m.Paired)
    (hannounces : m.Announces e) : m.KeepsObjects e := by
  refine ⟨fun hredials => ?_, (h.step hannounces).nodup⟩
  obtain ⟨hnull, hnodup, -⟩ := h.reinserted hredials
  exact ⟨hnull, hnodup⟩

theorem paired_new : new.Paired := by
  refine ⟨List.nodup_nil, ?_, ?_, ?_⟩ <;> simp [new, addresses, keptAddress]

/-- Along a run in which every redial is announced while the flag is clear, the list has no null
pointer and no object twice. -/
theorem keepsObjects_of_announces (es : List Event) (h : Along step Announces new es) :
    Along step KeepsObjects new es := by
  have hkeep : ∀ m e, Paired m → Announces m e → Paired (m.step e) :=
    fun m e hm hannounces => hm.step hannounces
  exact h.of_invariant Paired hkeep (fun m e hm hannounces => hm.keepsObjects hannounces) paired_new

/-- An eCall is dropped, ended and removed, and redialled once. -/
def redialledOnce : List Event :=
  [.makeECall ⟨1, "112", .makeECallWithMsd, true⟩, .changeCallState 1 .dialing 1,
    .changeCallState 1 .active 1, .onECallRedial true, .changeCallState 1 .ended 1,
    .changeCallState 1 .dialing 1, .removal 1, .resumeRedial 1 1, .onECallRedial false,
    .changeCallState 1 .ended 1, .removal 1]

theorem keepsObjects_redialledOnce :
    Along step Announces new redialledOnce ∧ Along step KeepsObjects new redialledOnce :=
  have hannounces : Along step Announces new redialledOnce := by decide
  ⟨hannounces, keepsObjects_of_announces redialledOnce hannounces⟩

/-- A voice call is ended and removed before an eCall is dropped. The redial does not wait for
the removal of the eCall. -/
def redialledAfterVoiceCall : List Event :=
  [.makeCall ⟨1, "5550100", .makeVoiceCall, false⟩, .changeCallState 1 .ended 1, .removal 1,
    .makeECall ⟨1, "112", .makeECallWithMsd, true⟩, .changeCallState 1 .dialing 1,
    .changeCallState 1 .active 1, .onECallRedial true, .changeCallState 1 .ended 1,
    .changeCallState 1 .dialing 1]

theorem not_keepsObjects_redialledAfterVoiceCall :
    ¬ Along step KeepsObjects new redialledAfterVoiceCall := by
  intro h
  have hlast : KeepsObjects ((redialledAfterVoiceCall.take 8).foldl step new)
      (.changeCallState 1 .dialing 1) :=
    ((along_append new (redialledAfterVoiceCall.take 8) [.changeCallState 1 .dialing 1]).mp h).2.1
  exact (hlast.1 (by decide)).1 (by decide)

end CallManager

end Tel

end SatComm
