import SatComm.Tel.Indices
import SatComm.Tel.Loops

/-!
# One active call per phone

A request that activates a call is to put the active call of the phone on hold first. `makeCall`,
`Resume` and the answer of a waiting call do so. Three requests may leave a second call active:
the answer of a call that counts as incoming because the index 1 was free, a swap that names
another call than the active one, and a resumed background call of the other phone.
-/

namespace SatComm

namespace Tel

open Runs Lookup CallInfo

/-- No phone has two active calls. -/
def OneActive (calls : List CallInfo) : Prop :=
  calls.Pairwise fun a b =>
    ¬ (a.callState = .active ∧ b.callState = .active ∧ a.phoneId = b.phoneId)

instance (calls : List CallInfo) : Decidable (OneActive calls) :=
  inferInstanceAs (Decidable (calls.Pairwise fun a b =>
    ¬ (a.callState = .active ∧ b.callState = .active ∧ a.phoneId = b.phoneId)))

/-- The active calls of a phone have one index. -/
def SameIndex (calls : List CallInfo) : Prop :=
  ∀ a ∈ calls, ∀ b ∈ calls, a.callState = .active → b.callState = .active →
    a.phoneId = b.phoneId → a.index = b.index

theorem oneActive_iff {calls : List CallInfo} (h : Stacked key IsNew calls) :
    OneActive calls ↔ SameIndex calls := by
  constructor
  · intro hone a ha b hb hactive hactive' hphone
    by_contra hindex
    have hne : a ≠ b := fun h => hindex (congrArg CallInfo.index h)
    have hsymm : Std.Symm fun a b : CallInfo =>
        ¬ (a.callState = .active ∧ b.callState = .active ∧ a.phoneId = b.phoneId) :=
      ⟨fun x y hxy hyx => hxy ⟨hyx.2.1, hyx.1, hyx.2.2.symm⟩⟩
    exact List.Pairwise.forall hone ha hb hne ⟨hactive, hactive', hphone⟩
  · intro hsame
    refine List.Pairwise.imp_of_mem ?_ h
    rintro a b ha hb hnew ⟨hactive, hactive', hphone⟩
    have hkey : b.key = a.key := Prod.ext (hsame a ha b hb hactive hactive' hphone).symm hphone.symm
    exact IsNew.not_active hactive' (hnew hkey)

theorem SameIndex.of_active_mem {calls calls' : List CallInfo} (h : SameIndex calls)
    (hmem : ∀ call ∈ calls', call.callState = .active → call ∈ calls) : SameIndex calls' :=
  fun a ha b hb hactive hactive' =>
    h a (hmem a ha hactive) b (hmem b hb hactive') hactive hactive'

theorem SameIndex.setFirst {calls : List CallInfo} (h : SameIndex calls) (k : Int × Int)
    {state : CallState} (hstate : state ≠ .active) :
    SameIndex (setFirst key k (withState state) calls) := by
  refine h.of_active_mem fun call hcall hactive => ?_
  rcases mem_setFirst hcall with hold | ⟨old, -, -, rfl⟩
  · exact hold
  · exact absurd hactive hstate

/-- A call may be activated if the phone has no other active call. -/
theorem sameIndex_activate {calls : List CallInfo} {index phoneId : Int} (h : SameIndex calls)
    (hfree : ∀ call ∈ calls, call.callState = .active → call.phoneId = phoneId →
      call.index = index) :
    SameIndex (setFirst key (index, phoneId) (withState .active) calls) := by
  have hcases : ∀ call ∈ Lookup.setFirst key (index, phoneId) (withState .active) calls,
      call ∈ calls ∨ call.key = (index, phoneId) := by
    intro call hcall
    rcases mem_setFirst hcall with hold | ⟨old, -, hkey, rfl⟩
    · exact .inl hold
    · exact .inr hkey
  intro a ha b hb hactive hactive' hphone
  rcases hcases a ha with hold | hkey <;> rcases hcases b hb with hold' | hkey'
  · exact h a hold b hold' hactive hactive' hphone
  · rw [CallInfo.key, Prod.mk.injEq] at hkey'
    exact (hfree a hold hactive (hphone.trans hkey'.2)).trans hkey'.1.symm
  · rw [CallInfo.key, Prod.mk.injEq] at hkey
    exact hkey.1.trans (hfree b hold' hactive' (hphone.symm.trans hkey.2)).symm
  · rw [CallInfo.key, Prod.mk.injEq] at hkey hkey'
    exact hkey.1.trans hkey'.1.symm

/-- And only then. -/
theorem sameIndex_activate_iff {calls : List CallInfo} {index phoneId : Int} {found : CallInfo}
    (h : SameIndex calls) (hfound : first key (index, phoneId) calls = some found) :
    SameIndex (setFirst key (index, phoneId) (withState .active) calls) ↔
      ∀ call ∈ calls, call.callState = .active → call.phoneId = phoneId → call.index = index := by
  refine ⟨fun hafter call hcall hactive hphone => ?_, sameIndex_activate h⟩
  by_contra hindex
  have hne : call.key ≠ (index, phoneId) := fun hkey => hindex (congrArg Prod.fst hkey)
  have hkey := (first_eq_some hfound).2
  rw [CallInfo.key, Prod.mk.injEq] at hkey
  have hsame := hafter call (mem_setFirst_of_ne hcall hne) _ (mem_setFirst_of_first hfound) hactive
    rfl (hphone.trans hkey.2.symm)
  exact hindex (hsame.trans hkey.1)

namespace CallManager

/-! ## Requests that activate no second call -/

theorem Plain.emplaceBack {m : CallManager} (h : m.Plain) (call : CallInfo)
    (haddress : call.address = m.allocated) (hnew : call.IsNew)
    (hincoming : call.callState = .incoming → call.index = 1)
    (hwaiting : call.callState = .waiting → call.index ≠ 1) : (m.emplaceBack call).Plain := by
  constructor
  · exact h.not_ongoing
  · have hmap : (m.emplaceBack call).calls.map CallInfo.address =
        (m.calls.map CallInfo.address).concat call.address := by simp [CallManager.emplaceBack]
    rw [hmap]
    refine List.Nodup.concat (fun hmem => ?_) h.nodup
    obtain ⟨other, hother, heq⟩ := List.mem_map.mp hmem
    exact absurd (h.address_lt other hother) (by omega)
  · refine List.forall_mem_append.mpr ⟨fun other hother => ?_, ?_⟩
    · exact Nat.lt_succ_of_lt (h.address_lt other hother)
    · exact List.forall_mem_singleton.mpr (haddress ▸ Nat.lt_succ_self _)
  · exact h.stacked.concat hnew
  · exact List.forall_mem_append.mpr ⟨h.incoming, List.forall_mem_singleton.mpr hincoming⟩
  · exact List.forall_mem_append.mpr ⟨h.waiting, List.forall_mem_singleton.mpr hwaiting⟩

theorem sameIndex_emplaceBack {m : CallManager} (h : SameIndex m.calls) {call : CallInfo}
    (hnew : call.IsNew) : SameIndex (m.emplaceBack call).calls := by
  refine h.of_active_mem fun other hother hactive => ?_
  rcases List.mem_append.mp hother with hold | hlast
  · exact hold
  · rw [List.mem_singleton.mp hlast] at hactive
    exact absurd hnew (IsNew.not_active hactive)

theorem Plain.sameIndex_changeCallState {m : CallManager} (h : m.Plain) (hsame : SameIndex m.calls)
    (phoneId index : Int) {state : CallState} (hstate : state ≠ .active) :
    SameIndex (m.changeCallState phoneId state index).calls := by
  rw [h.calls_changeCallState]
  exact hsame.setFirst _ hstate

/-- Whatever was active before, only calls with the index are active afterwards. -/
theorem Plain.changeCallStateofActiveCalls {m : CallManager} (h : m.Plain) (index : Int) :
    (m.changeCallStateofActiveCalls index).Plain ∧
      SameIndex (m.changeCallStateofActiveCalls index).calls := by
  obtain ⟨hplain, hcalls⟩ := h.holdActiveCalls index
  have hactive : ∀ call ∈ (m.holdActiveCalls index).calls, call.callState = .active →
      call.index = index := by
    rw [hcalls, List.forall_mem_map]
    intro call _ hactive
    unfold held at hactive ⊢
    split_ifs at hactive ⊢ with htest
    · cases hactive
    · by_contra hindex
      exact htest ⟨hindex, hactive⟩
  have hsame : SameIndex (m.holdActiveCalls index).calls := fun a ha b hb ha' hb' _ =>
    (hactive a ha ha').trans (hactive b hb hb').symm
  unfold CallManager.changeCallStateofActiveCalls
  split
  · rename_i newCall hnew
    have hindex : newCall.index = index := by simpa using List.find?_some hnew
    refine ⟨hplain.changeCallState _ _ _ nofun nofun, ?_⟩
    rw [hplain.calls_changeCallState]
    refine sameIndex_activate hsame fun call hcall hcallActive _ => ?_
    exact (hactive call hcall hcallActive).trans hindex.symm
  · exact ⟨hplain, hsame⟩

theorem sameIndex_of_length {calls : List CallInfo} (h : calls.length = 1) : SameIndex calls := by
  obtain ⟨call, rfl⟩ := List.length_eq_one_iff.mp h
  intro a ha b hb _ _ _
  rw [List.mem_singleton.mp ha, List.mem_singleton.mp hb]

theorem Plain.handleCallMachine {m : CallManager} (h : m.Plain) (hsame : SameIndex m.calls)
    (callInfo : CallInfo) :
    (m.handleCallMachine callInfo).Plain ∧ SameIndex (m.handleCallMachine callInfo).calls := by
  have hdialing := h.changeCallState callInfo.phoneId .dialing callInfo.index nofun nofun
  have halerting := hdialing.changeCallState callInfo.phoneId .alerting callInfo.index nofun nofun
  unfold CallManager.handleCallMachine
  split_ifs with hdirection hlength
  · refine ⟨halerting.changeCallState _ _ _ nofun nofun, sameIndex_of_length ?_⟩
    rw [halerting.calls_changeCallState, length_setFirst, hdialing.calls_changeCallState,
      length_setFirst, h.calls_changeCallState, length_setFirst]
    exact hlength
  · exact halerting.changeCallStateofActiveCalls callInfo.index
  · exact ⟨h, hsame⟩

theorem Plain.makeCall {m : CallManager} (h : m.Plain) (hsame : SameIndex m.calls)
    (request : CallRequest) :
    (m.makeCall request).Plain ∧ SameIndex (m.makeCall request).calls := by
  unfold CallManager.makeCall
  split
  · rename_i m' hadded
    have hnew : (m.newCall request).IsNew := .inl rfl
    rw [eq_of_addNewCallDetails hadded]
    exact (h.emplaceBack _ rfl hnew nofun nofun).handleCallMachine
      (sameIndex_emplaceBack hsame hnew) _
  · exact ⟨h, hsame⟩

theorem one_le_setCallIndexForNewCall (m : CallManager) : 1 ≤ m.setCallIndexForNewCall := by
  obtain ⟨count, hnext, -⟩ := nextIndex_eq m.calls 1
  rw [setCallIndexForNewCall, hnext]
  omega

theorem Plain.incomingRequest {m : CallManager} (h : m.Plain) (hsame : SameIndex m.calls)
    (phoneId : Int) (dialNumber : String) :
    (m.incoming phoneId dialNumber).Plain ∧ SameIndex (m.incoming phoneId dialNumber).calls := by
  have hle := m.one_le_setCallIndexForNewCall
  have hstate : ((m.incomingCall phoneId dialNumber).callState = .incoming ∧
      m.setCallIndexForNewCall = 1) ∨ ((m.incomingCall phoneId dialNumber).callState = .waiting ∧
      m.setCallIndexForNewCall ≠ 1) := by
    unfold incomingCall
    split_ifs with hlt
    · exact .inr ⟨rfl, by omega⟩
    · exact .inl ⟨rfl, by omega⟩
  have hnew : (m.incomingCall phoneId dialNumber).IsNew :=
    .inr (hstate.imp And.left And.left)
  have hactive : (m.incomingCall phoneId dialNumber).callState ≠ .active :=
    fun hactive => IsNew.not_active hactive hnew
  have hincoming : (m.incomingCall phoneId dialNumber).callState = .incoming →
      m.setCallIndexForNewCall = 1 := by
    rcases hstate with ⟨-, hone⟩ | ⟨hwaits, -⟩
    · exact fun _ => hone
    · rw [hwaits]
      exact nofun
  have hwaiting : (m.incomingCall phoneId dialNumber).callState = .waiting →
      m.setCallIndexForNewCall ≠ 1 := by
    rcases hstate with ⟨hin, -⟩ | ⟨-, hne⟩
    · rw [hin]
      exact nofun
    · exact fun _ => hne
  unfold CallManager.incoming
  simp only []
  split
  · rename_i m' hadded
    rw [eq_of_handleIncomingCallRequest hadded]
    have hplain := h.emplaceBack (m.incomingCall phoneId dialNumber) rfl hnew hincoming hwaiting
    exact ⟨hplain.changeCallState _ _ _ hincoming hwaiting,
      hplain.sameIndex_changeCallState (sameIndex_emplaceBack hsame hnew) _ _ hactive⟩
  · exact ⟨h, hsame⟩

theorem Plain.findAndRemoveMatchingCall {m : CallManager} (h : m.Plain) (callIndex : Int) :
    (m.findAndRemoveMatchingCall callIndex).Plain ∧
      (m.findAndRemoveMatchingCall callIndex).calls.Sublist m.calls := by
  unfold CallManager.findAndRemoveMatchingCall
  split
  · have hsub : (m.calls.eraseP fun call => call.index == callIndex).Sublist m.calls :=
      List.eraseP_sublist
    refine ⟨⟨h.not_ongoing, h.nodup.sublist (hsub.map _), ?_, h.stacked.sublist hsub, ?_, ?_⟩, hsub⟩
    · exact fun call hcall => h.address_lt call (hsub.subset hcall)
    · exact fun call hcall => h.incoming call (hsub.subset hcall)
    · exact fun call hcall => h.waiting call (hsub.subset hcall)
  · exact ⟨⟨h.not_ongoing, h.nodup, h.address_lt, h.stacked, h.incoming, h.waiting⟩,
      List.Sublist.refl _⟩

/-- A loop that ends calls activates none. -/
theorem Plain.sameIndex_endingLoop {m : CallManager} (hsame : SameIndex m.calls)
    (test : CallInfo → Prop) [DecidablePred test] :
    SameIndex (m.calls.map (endCalls test m.calls m.calls)) := by
  refine hsame.of_active_mem (List.forall_mem_map.mpr fun call hcall hactive => ?_)
  unfold endCalls at hactive ⊢
  split_ifs at hactive ⊢
  · cases hactive
  · exact hcall

/-! ## Requests that may activate a second call -/

def HasActive (m : CallManager) (phoneId : Int) : Prop :=
  ∃ call ∈ m.calls, call.phoneId = phoneId ∧ call.callState = .active

/-- Activating a call that is not active adds an active call to its phone. -/
theorem Plain.sameIndex_activate_iff {m : CallManager} (h : m.Plain) (hsame : SameIndex m.calls)
    (found : CallInfo) (hfound : first key found.key m.calls = some found)
    (hstate : found.callState ≠ .active) :
    SameIndex (m.changeCallState found.phoneId .active found.index).calls ↔
      ¬ m.HasActive found.phoneId := by
  rw [h.calls_changeCallState, Tel.sameIndex_activate_iff hsame hfound]
  constructor
  · rintro hindex ⟨call, hcall, hphone, hactive⟩
    have hkey : call.key = found.key := Prod.ext (hindex call hcall hactive hphone) hphone
    have hfirst := h.stacked.first_eq hcall (IsNew.not_active hactive)
    rw [hkey, hfound] at hfirst
    exact hstate (Option.some.inj hfirst ▸ hactive)
  · exact fun hnone call hcall hactive hphone => (hnone ⟨call, hcall, hphone, hactive⟩).elim

theorem Plain.answer {m : CallManager} (h : m.Plain) (hsame : SameIndex m.calls)
    (phoneId callIndex : Int) :
    (m.answer phoneId callIndex).Plain ∧ (SameIndex (m.answer phoneId callIndex).calls ↔
      ((∃ info ∈ m.findMatchingCall phoneId callIndex, info.callState = .incoming) →
        ¬ m.HasActive phoneId)) := by
  unfold CallManager.answer
  rw [findMatchingCall_eq]
  cases hfound : first key (callIndex, phoneId) m.calls with
  | none => simp [h, hsame]
  | some info =>
    have hkey := (first_eq_some hfound).2
    have hphone : info.phoneId = phoneId := congrArg Prod.snd hkey
    by_cases hincoming : info.callState = .incoming
    · have hiff := h.sameIndex_activate_iff hsame info (hkey ▸ hfound)
        (by rw [hincoming]; decide)
      simp only [hincoming, if_true]
      refine ⟨h.changeCallState _ _ _ nofun nofun, hiff.trans ?_⟩
      simp [hincoming, hphone]
    · simp only [hincoming, if_false]
      split_ifs
      · obtain ⟨hplain, hsame'⟩ := h.changeCallStateofActiveCalls info.index
        exact ⟨hplain, iff_of_true hsame' (by simp [hincoming])⟩
      · exact ⟨h, iff_of_true hsame (by simp [hincoming])⟩

/-- The calls that are active after a swap. -/
theorem active_swapped_iff (callHoldIndex phoneIndex callActivateIndex : Int) (call : CallInfo) :
    (putOnHold callActivateIndex phoneIndex
        (activated callHoldIndex phoneIndex call)).callState = .active ↔
      (call.phoneId = phoneIndex ∧ call.index = callHoldIndex ∧ call.callState = .onHold ∧
          callHoldIndex ≠ callActivateIndex) ∨
        (call.callState = .active ∧
          ¬ (call.phoneId = phoneIndex ∧ call.index = callActivateIndex)) := by
  by_cases hactivate : call.phoneId = phoneIndex ∧ call.index = callHoldIndex ∧
      call.callState = .onHold
  · obtain ⟨rfl, rfl, honHold⟩ := hactivate
    by_cases hsame : call.index = callActivateIndex <;>
      simp [putOnHold, activated, withState, honHold, hsame]
  · by_cases hhold : call.phoneId = phoneIndex ∧ call.index = callActivateIndex ∧
        call.callState = .active
    · obtain ⟨rfl, rfl, hactive⟩ := hhold
      simp [putOnHold, activated, withState, hactive]
    · rw [activated, if_neg hactivate, putOnHold, if_neg hhold]
      tauto

theorem key_swapped (callHoldIndex phoneIndex callActivateIndex : Int) (call : CallInfo) :
    (putOnHold callActivateIndex phoneIndex (activated callHoldIndex phoneIndex call)).key =
      call.key := by
  unfold putOnHold activated
  split_ifs <;> rfl

/-- A swap may leave two calls active only where it activates a call on hold and the active call
of the phone is not the one that it names. -/
theorem Plain.sameIndex_swapCalls_iff {m : CallManager} (h : m.Plain) (hsame : SameIndex m.calls)
    (callHoldIndex phoneIndex callActivateIndex : Int) :
    SameIndex (m.swapCalls callHoldIndex phoneIndex callActivateIndex).calls ↔
      (callHoldIndex ≠ callActivateIndex →
        (∃ call ∈ m.calls, call.phoneId = phoneIndex ∧ call.index = callHoldIndex ∧
          call.callState = .onHold) →
        ∀ call ∈ m.calls, call.callState = .active → call.phoneId = phoneIndex →
          call.index = callActivateIndex) := by
  let g (call : CallInfo) : CallInfo :=
    putOnHold callActivateIndex phoneIndex (activated callHoldIndex phoneIndex call)
  have hactive := active_swapped_iff callHoldIndex phoneIndex callActivateIndex
  have hindex : ∀ call, (g call).index = call.index := fun call =>
    congrArg Prod.fst (key_swapped callHoldIndex phoneIndex callActivateIndex call)
  have hphone : ∀ call, (g call).phoneId = call.phoneId := fun call =>
    congrArg Prod.snd (key_swapped callHoldIndex phoneIndex callActivateIndex call)
  rw [(h.swapCalls callHoldIndex phoneIndex callActivateIndex).2]
  constructor
  · rintro hafter hne ⟨held, hheld, hheldPhone, hheldIndex, honHold⟩ call hcall hcallActive hcallPhone
    by_contra hother
    have heq := hafter (g held) (List.mem_map_of_mem hheld) (g call) (List.mem_map_of_mem hcall)
      ((hactive held).mpr (.inl ⟨hheldPhone, hheldIndex, honHold, hne⟩))
      ((hactive call).mpr (.inr ⟨hcallActive, fun hnamed => hother hnamed.2⟩))
      (by rw [hphone, hphone, hheldPhone, hcallPhone])
    rw [hindex, hindex] at heq
    -- a call on hold and an active call do not share a key
    have hsameCall := h.stacked.eq_of_key hheld (IsNew.not_onHold honHold) hcall
      (IsNew.not_active hcallActive) (Prod.ext heq (hheldPhone.trans hcallPhone.symm))
    rw [hsameCall, hcallActive] at honHold
    cases honHold
  · intro hallowed
    -- an activated call and a call that stays active would be the two calls of the hypothesis
    have hmixed : ∀ held ∈ m.calls, ∀ call ∈ m.calls, held.phoneId = phoneIndex →
        held.index = callHoldIndex → held.callState = .onHold →
        callHoldIndex ≠ callActivateIndex → call.callState = .active →
        ¬ (call.phoneId = phoneIndex ∧ call.index = callActivateIndex) →
        held.phoneId ≠ call.phoneId := by
      intro held hheld call hcall hheldPhone hheldIndex honHold hne hcallActive hnot heq
      have hcallPhone := heq.symm.trans hheldPhone
      exact hnot ⟨hcallPhone, hallowed hne ⟨held, hheld, hheldPhone, hheldIndex, honHold⟩ call hcall
        hcallActive hcallPhone⟩
    refine List.forall_mem_map.mpr fun a ha => List.forall_mem_map.mpr fun b hb => ?_
    intro ha' hb' hphones
    have hphones' : a.phoneId = b.phoneId := by rwa [hphone, hphone] at hphones
    show (g a).index = (g b).index
    rw [hindex, hindex]
    rcases (hactive a).mp ha' with ⟨hap, hai, hah, hne⟩ | ⟨haa, han⟩ <;>
      rcases (hactive b).mp hb' with ⟨hbp, hbi, hbh, hne⟩ | ⟨hba, hbn⟩
    · exact hai.trans hbi.symm
    · exact absurd hphones' (hmixed a ha b hb hap hai hah hne hba hbn)
    · exact absurd hphones'.symm (hmixed b hb a ha hbp hbi hbh hne haa han)
    · exact hsame a ha b hb haa hba hphones'

theorem Plain.sameIndex_resume {m : CallManager} (h : m.Plain) (hsame : SameIndex m.calls)
    (phoneId callIndex : Int) :
    SameIndex (m.swapCalls callIndex phoneId (m.getCallIndexOfActiveCall phoneId)).calls := by
  rw [h.sameIndex_swapCalls_iff hsame]
  intro _ _ call hcall hactive hphone
  unfold getCallIndexOfActiveCall
  split
  · rename_i found hfound
    have htest : found.phoneId = phoneId ∧ found.callState = .active := by
      simpa using List.find?_some hfound
    exact hsame call hcall found (List.mem_of_find?_eq_some hfound) hactive htest.2
      (hphone.trans htest.1.symm)
  · rename_i hnone
    have hall := List.find?_eq_none.mp hnone call hcall
    simp [hphone, hactive] at hall

/-- The calls that `hangupForegroundgroundCalls` looks for. -/
def Foreground (phoneId : Int) (call : CallInfo) : Prop :=
  call.phoneId = phoneId ∧ (call.callState = .active ∨ call.callState = .incoming)

instance (phoneId : Int) : DecidablePred (Foreground phoneId) := fun _ =>
  inferInstanceAs (Decidable (_ ∧ (_ ∨ _)))

/-- A call on hold is ended with the foreground calls if an incoming call has its index. -/
def EndsWithForeground (m : CallManager) (phoneId : Int) (call : CallInfo) : Prop :=
  call.phoneId = phoneId ∧ ∃ other ∈ m.calls, other.key = call.key ∧ other.callState = .incoming

instance (m : CallManager) (phoneId : Int) : DecidablePred (m.EndsWithForeground phoneId) :=
  fun call => inferInstanceAs (Decidable
    (_ ∧ ∃ other ∈ m.calls, other.key = call.key ∧ other.callState = .incoming))

/-- The first call on hold that is left when the foreground calls of a phone have ended. -/
def leftOnHold (m : CallManager) (phoneId : Int) : Option CallInfo :=
  m.calls.find? fun call =>
    decide (call.callState = .onHold ∧ ¬ m.EndsWithForeground phoneId call)

section Foreground

variable {m : CallManager} (h : m.Plain) (phoneId : Int)
include h

theorem Plain.hangupForegroundgroundCalls :
    (m.hangupForegroundgroundCalls phoneId).Plain ∧
      (m.hangupForegroundgroundCalls phoneId).calls =
        m.calls.map (endCalls (Foreground phoneId) m.calls m.calls) :=
  h.endingLoop (Foreground phoneId)

theorem Plain.ends_of_active {call : CallInfo} (hcall : call ∈ m.calls)
    (hactive : call.callState = .active) :
    Ends (Foreground phoneId) m.calls m.calls call ↔ call.phoneId = phoneId := by
  constructor
  · rintro ⟨-, other, -, hkey, hphone, -⟩
    exact (congrArg Prod.snd hkey).symm.trans hphone
  · intro hphone
    exact ⟨h.stacked.first_eq hcall (IsNew.not_active hactive), call, hcall, rfl, hphone, .inl hactive⟩

theorem Plain.not_ends_of_waiting {call : CallInfo} (hcall : call ∈ m.calls)
    (hwaiting : call.callState = .waiting) :
    ¬ Ends (Foreground phoneId) m.calls m.calls call := by
  rintro ⟨hfirst, other, hother, hkey, -, hactive | hincoming⟩
  · have hfirst' := h.stacked.first_eq hother (IsNew.not_active hactive)
    rw [hkey, hfirst] at hfirst'
    rw [Option.some.inj hfirst', hactive] at hwaiting
    cases hwaiting
  · have hindex : other.index = call.index := congrArg Prod.fst hkey
    exact h.waiting call hcall hwaiting (hindex ▸ h.incoming other hother hincoming)

theorem Plain.ends_of_onHold {call : CallInfo} (hcall : call ∈ m.calls)
    (honHold : call.callState = .onHold) :
    Ends (Foreground phoneId) m.calls m.calls call ↔ m.EndsWithForeground phoneId call := by
  constructor
  · rintro ⟨-, other, hother, hkey, hphone, hactive | hincoming⟩
    · have heq := h.stacked.eq_of_key hother (IsNew.not_active hactive) hcall
        (IsNew.not_onHold honHold) hkey
      rw [← heq, hactive] at honHold
      cases honHold
    · exact ⟨(congrArg Prod.snd hkey).symm.trans hphone, other, hother, hkey, hincoming⟩
  · rintro ⟨hphone, other, hother, hkey, hincoming⟩
    exact ⟨h.stacked.first_eq hcall (IsNew.not_onHold honHold), other, hother, hkey,
      (congrArg Prod.snd hkey).trans hphone, .inr hincoming⟩

theorem Plain.hasActive_hangupForeground_iff (other : Int) :
    (m.hangupForegroundgroundCalls phoneId).HasActive other ↔
      m.HasActive other ∧ other ≠ phoneId := by
  rw [HasActive, (h.hangupForegroundgroundCalls phoneId).2]
  constructor
  · rintro ⟨call, hcall, hphone, hactive⟩
    obtain ⟨old, hold, rfl⟩ := List.mem_map.mp hcall
    unfold endCalls at hphone hactive
    split_ifs at hphone hactive with hends
    · cases hactive
    · refine ⟨⟨old, hold, hphone, hactive⟩, fun heq => hends ?_⟩
      exact (h.ends_of_active phoneId hold hactive).mpr (hphone.trans heq)
  · rintro ⟨⟨call, hcall, hphone, hactive⟩, hne⟩
    have hends : ¬ Ends (Foreground phoneId) m.calls m.calls call := fun hends =>
      hne (hphone.symm.trans ((h.ends_of_active phoneId hcall hactive).mp hends))
    refine ⟨call, List.mem_map.mpr ⟨call, hcall, if_neg hends⟩, hphone, hactive⟩

theorem Plain.waiting_hangupForeground_iff :
    (∃ call ∈ (m.hangupForegroundgroundCalls phoneId).calls, call.phoneId = phoneId ∧
        call.callState = .waiting) ↔
      ∃ call ∈ m.calls, call.phoneId = phoneId ∧ call.callState = .waiting := by
  rw [(h.hangupForegroundgroundCalls phoneId).2]
  constructor
  · rintro ⟨call, hcall, hphone, hwaiting⟩
    obtain ⟨old, hold, rfl⟩ := List.mem_map.mp hcall
    unfold endCalls at hphone hwaiting
    split_ifs at hphone hwaiting with hends
    · cases hwaiting
    · exact ⟨old, hold, hphone, hwaiting⟩
  · rintro ⟨call, hcall, hphone, hwaiting⟩
    exact ⟨call, List.mem_map.mpr
      ⟨call, hcall, if_neg (h.not_ends_of_waiting phoneId hcall hwaiting)⟩, hphone, hwaiting⟩

theorem Plain.find_onHold_hangupForeground :
    ((m.hangupForegroundgroundCalls phoneId).calls.find? fun call => call.callState == .onHold) =
      m.leftOnHold phoneId := by
  rw [(h.hangupForegroundgroundCalls phoneId).2, List.find?_map]
  have hcongr : ∀ call ∈ m.calls,
      ((fun call : CallInfo => call.callState == .onHold) ∘
        endCalls (Foreground phoneId) m.calls m.calls) call =
      decide (call.callState = .onHold ∧ ¬ m.EndsWithForeground phoneId call) := by
    intro call hcall
    rw [Bool.eq_iff_iff, Function.comp_apply, beq_iff_eq, decide_eq_true_iff, endCalls]
    by_cases honHold : call.callState = .onHold
    · rw [← h.ends_of_onHold phoneId hcall honHold]
      split_ifs with hends
      · simp [withState, hends]
      · simp [honHold, hends]
    · split_ifs with hends
      · simp [withState, honHold]
      · simp [honHold]
  rw [List.find?_congr hcongr]
  show (m.leftOnHold phoneId).map _ = _
  cases hleft : m.leftOnHold phoneId with
  | none => rfl
  | some call =>
    have htest : call.callState = .onHold ∧ ¬ m.EndsWithForeground phoneId call := by
      simpa using List.find?_some hleft
    have hends : ¬ Ends (Foreground phoneId) m.calls m.calls call := fun hends => htest.2
      ((h.ends_of_onHold phoneId (List.mem_of_find?_eq_some hleft) htest.1).mp hends)
    exact congrArg some (if_neg hends)

end Foreground

/-- No call of the phone waits, so that the first call on hold is resumed, and that is one of
another phone with an active call. -/
theorem Plain.hangupForegroundResumeBackground {m : CallManager} (h : m.Plain)
    (hsame : SameIndex m.calls) (phoneId : Int) :
    ((m.hangupForegroundgroundCalls phoneId).resumeBackgroundCalls phoneId).Plain ∧
      (SameIndex ((m.hangupForegroundgroundCalls phoneId).resumeBackgroundCalls phoneId).calls ↔
        ((∀ call ∈ m.calls, call.phoneId = phoneId → call.callState ≠ .waiting) →
          ∀ call ∈ m.leftOnHold phoneId, call.phoneId ≠ phoneId → ¬ m.HasActive call.phoneId)) := by
  obtain ⟨hplain, hcalls⟩ := h.hangupForegroundgroundCalls phoneId
  have hsame' : SameIndex (m.hangupForegroundgroundCalls phoneId).calls :=
    hcalls ▸ sameIndex_endingLoop hsame (Foreground phoneId)
  have hactive := h.hasActive_hangupForeground_iff phoneId
  have hwaiting := h.waiting_hangupForeground_iff phoneId
  unfold resumeBackgroundCalls
  rw [h.find_onHold_hangupForeground phoneId]
  split
  · rename_i call hcall
    have htest : call.phoneId = phoneId ∧ call.callState = .waiting := by
      simpa using List.find?_some hcall
    refine ⟨hplain.changeCallState _ _ _ nofun nofun, iff_of_true ?_ fun hnone => ?_⟩
    · rw [hplain.calls_changeCallState]
      refine sameIndex_activate hsame' fun other hother hotherActive hphone => ?_
      exact absurd rfl ((hactive phoneId).mp ⟨other, hother, hphone.trans htest.1, hotherActive⟩).2
    · obtain ⟨old, hold, hphone, hwaits⟩ := hwaiting.mp
        ⟨call, List.mem_of_find?_eq_some hcall, htest.1, htest.2⟩
      exact absurd hwaits (hnone old hold hphone)
  · rename_i hnone
    have hfree : ∀ call ∈ m.calls, call.phoneId = phoneId → call.callState ≠ .waiting := by
      intro call hcall hphone hwaits
      obtain ⟨other, hother, htest⟩ := hwaiting.mpr ⟨call, hcall, hphone, hwaits⟩
      have hfalse := List.find?_eq_none.mp hnone other hother
      simp [htest] at hfalse
    cases hleft : m.leftOnHold phoneId with
    | none => exact ⟨hplain, iff_of_true hsame' fun _ call hcall => by cases hcall⟩
    | some call =>
      refine ⟨hplain.changeCallState _ _ _ nofun nofun, ?_⟩
      have hfind := h.find_onHold_hangupForeground phoneId
      rw [hleft] at hfind
      have honHold : call.callState = .onHold := by simpa using List.find?_some hfind
      have hfirst := hplain.stacked.first_eq (List.mem_of_find?_eq_some hfind)
        (IsNew.not_onHold honHold)
      show SameIndex (CallManager.changeCallState _ _ _ _).calls ↔ _
      rw [hplain.sameIndex_activate_iff hsame' call hfirst (by rw [honHold]; decide), hactive]
      constructor
      · intro hnot _ other hother hne hhas
        cases hother
        exact hnot ⟨hhas, hne⟩
      · rintro hallowed ⟨hhas, hne⟩
        exact hallowed hfree call rfl hne hhas

/-! ## Runs of requests -/

/-- A call that counts as incoming is answered while its phone has no active call; a swap that
activates a call on hold names the active call of the phone; and where the background call to be
resumed is one of another phone, that phone has no active call. -/
def Allowed (m : CallManager) : Request → Prop
  | .answer phoneId callIndex =>
    (∃ info ∈ m.findMatchingCall phoneId callIndex, info.callState = .incoming) →
      ¬ m.HasActive phoneId
  | .swap callToHoldIndex phoneId callToActivateIndex =>
    callToHoldIndex ≠ callToActivateIndex →
      (∃ call ∈ m.calls, call.phoneId = phoneId ∧ call.index = callToHoldIndex ∧
        call.callState = .onHold) →
      ∀ call ∈ m.calls, call.callState = .active → call.phoneId = phoneId →
        call.index = callToActivateIndex
  | .hangupForegroundResumeBackground phoneId =>
    (∀ call ∈ m.calls, call.phoneId = phoneId → call.callState ≠ .waiting) →
      ∀ call ∈ m.leftOnHold phoneId, call.phoneId ≠ phoneId → ¬ m.HasActive call.phoneId
  | _ => True

theorem Plain.serve {m : CallManager} (h : m.Plain) (hsame : SameIndex m.calls)
    (request : Request) :
    (m.serve request).Plain ∧ (SameIndex (m.serve request).calls ↔ m.Allowed request) := by
  -- what every request but three gives
  have htrue : ∀ {m' : CallManager}, m'.Plain ∧ SameIndex m'.calls →
      m'.Plain ∧ (SameIndex m'.calls ↔ True) := fun h' => ⟨h'.1, iff_true_intro h'.2⟩
  have hwrite : ∀ phoneId index (state : CallState), state = .onHold ∨ state = .ended →
      (m.changeCallState phoneId state index).Plain ∧
        SameIndex (m.changeCallState phoneId state index).calls := by
    rintro phoneId index state (rfl | rfl) <;>
    exact ⟨h.changeCallState _ _ _ nofun nofun, h.sameIndex_changeCallState hsame _ _ nofun⟩
  cases request with
  | makeCall request => exact htrue (h.makeCall hsame request)
  | incoming phoneId dialNumber => exact htrue (h.incomingRequest hsame phoneId dialNumber)
  | answer phoneId callIndex => exact h.answer hsame phoneId callIndex
  | hold phoneId callIndex =>
    refine htrue ?_
    unfold CallManager.serve holdCall
    simp only []
    split
    · exact hwrite _ _ _ (.inl rfl)
    · exact ⟨h, hsame⟩
  | resume phoneId callIndex =>
    exact htrue ⟨(h.swapCalls _ _ _).1, h.sameIndex_resume hsame phoneId callIndex⟩
  | swap callToHoldIndex phoneId callToActivateIndex =>
    exact ⟨(h.swapCalls _ _ _).1, h.sameIndex_swapCalls_iff hsame _ _ _⟩
  | hangup phoneId callIndex =>
    refine htrue ?_
    unfold CallManager.serve hangup
    simp only []
    split
    · split_ifs
      · exact ⟨h, hsame⟩
      · exact hwrite _ _ _ (.inr rfl)
    · exact ⟨h, hsame⟩
  | hangupForegroundResumeBackground phoneId =>
    exact h.hangupForegroundResumeBackground hsame phoneId
  | hangupWaitingOrBackground phoneId =>
    obtain ⟨hplain, hcalls⟩ := h.endingLoop fun call =>
      call.phoneId = phoneId ∧ (call.callState = .onHold ∨ call.callState = .incoming)
    exact htrue ⟨hplain, hcalls ▸ sameIndex_endingLoop hsame _⟩
  | reject phoneId callIndex =>
    refine htrue ?_
    unfold CallManager.serve reject
    simp only []
    split
    · exact hwrite _ _ _ (.inr rfl)
    · exact ⟨h, hsame⟩
  | removal callIndex =>
    refine htrue ?_
    unfold CallManager.serve
    simp only []
    split_ifs
    · obtain ⟨hplain, hsub⟩ := h.findAndRemoveMatchingCall callIndex
      exact ⟨hplain, hsame.of_active_mem fun call hcall _ => hsub.subset hcall⟩
    · exact ⟨h, hsame⟩

theorem plain_new : new.Plain := by
  have hnone : ∀ call, call ∉ new.calls := fun _ => List.not_mem_nil
  exact ⟨rfl, List.nodup_nil, fun call hcall => absurd hcall (hnone call), List.Pairwise.nil,
    fun call hcall => absurd hcall (hnone call), fun call hcall => absurd hcall (hnone call)⟩

/-- No phone has two active calls after any request of a run exactly if every request is
allowed. -/
theorem oneActive_reached_iff (requests : List Request) :
    (∀ n, OneActive ((requests.take n).foldl serve new).calls) ↔
      Along serve Allowed new requests := by
  have hnew : OneActive new.calls := List.Pairwise.nil
  rw [← along_reached_iff (fun m : CallManager => OneActive m.calls) hnew]
  refine along_congr (fun m : CallManager => m.Plain ∧ SameIndex m.calls) ?_ ?_ requests
    ⟨plain_new, fun a ha => absurd ha List.not_mem_nil⟩
  · rintro m request ⟨h, hsame⟩
    obtain ⟨hplain, hiff⟩ := h.serve hsame request
    rw [oneActive_iff hplain.stacked, hiff]
  · rintro m request ⟨h, hsame⟩ hallowed
    obtain ⟨hplain, hiff⟩ := h.serve hsame request
    exact ⟨hplain, hiff.mpr hallowed⟩

/-- The first of two calls is hung up and removed, and the next incoming call gets the index 1. -/
def answeredAsIncoming : List Request :=
  [.makeCall ⟨1, "5550100", .makeVoiceCall, false⟩,
    .makeCall ⟨1, "5550101", .makeVoiceCall, false⟩, .hangup 1 1, .removal 1,
    .incoming 1 "5550102", .answer 1 1]

theorem not_oneActive_answeredAsIncoming :
    ¬ ∀ n, OneActive ((answeredAsIncoming.take n).foldl serve new).calls := by
  intro h
  have hlast := h 6
  revert hlast
  decide

end CallManager

end Tel

end SatComm
