import Mathlib.Data.List.Nodup
import SatComm.Tel.CallManager

/-!
# Call indices

`setCallIndexForNewCall` is to find the lowest unfilled index. It compares the first call with
1, the second with 2 and so on, and stops at the first difference; calls are appended, so after a
removal a low index may stand behind a higher one. The index found is the lowest unused one
exactly where the calls below it stand at the front in order.
-/

namespace SatComm

namespace Tel

open Runs

/-- `count` numbers from `first` on. -/
def upFrom (first : Int) : Nat → List Int
  | 0 => []
  | count + 1 => first :: upFrom (first + 1) count

theorem mem_upFrom {first i : Int} {count : Nat} :
    i ∈ upFrom first count ↔ first ≤ i ∧ i < first + count := by
  induction count generalizing first with
  | zero => simp [upFrom]
  | succ count ih =>
    rw [upFrom, List.mem_cons, ih]
    push_cast
    omega

/-- The least number from 1 on that no call has. -/
def LowestUnused (indices : List Int) (i : Int) : Prop :=
  1 ≤ i ∧ i ∉ indices ∧ ∀ j, 1 ≤ j → j < i → j ∈ indices

/-- The list starts with the numbers below the lowest unused one. -/
def StartsInOrder (indices : List Int) : Prop :=
  ∃ count : Nat, upFrom 1 count <+: indices ∧ 1 + (count : Int) ∉ indices

/-- The index found is the end of the ascending run that the list starts with. -/
theorem nextIndex_eq (calls : List CallInfo) (first : Int) :
    ∃ count : Nat, nextIndex calls first = first + count ∧
      upFrom first count <+: calls.map CallInfo.index := by
  induction calls generalizing first with
  | nil => exact ⟨0, by simp [nextIndex], List.nil_prefix⟩
  | cons call calls ih =>
    by_cases hcall : call.index = first
    · obtain ⟨count, hnext, hstarts⟩ := ih (first + 1)
      refine ⟨count + 1, ?_, ?_⟩
      · rw [nextIndex, if_neg (not_not.mpr hcall), hnext]
        push_cast
        omega
      · rw [upFrom, List.map_cons, hcall]
        exact (List.prefix_cons_inj first).mpr hstarts
    · refine ⟨0, ?_, List.nil_prefix⟩
      rw [nextIndex, if_pos hcall]
      simp

/-- An ascending run whose next number is unused is the whole ascending run. -/
theorem nextIndex_of_starts {calls : List CallInfo} {first : Int} {count : Nat}
    (hstarts : upFrom first count <+: calls.map CallInfo.index)
    (hunused : first + count ∉ calls.map CallInfo.index) :
    nextIndex calls first = first + count := by
  induction count generalizing calls first with
  | zero =>
    cases calls with
    | nil => simp [nextIndex]
    | cons call calls =>
      have hne : call.index ≠ first := fun h => hunused (by simp [h])
      rw [nextIndex, if_pos hne]
      simp
  | succ count ih =>
    cases calls with
    | nil => simp [upFrom] at hstarts
    | cons call calls =>
      rw [upFrom, List.map_cons, List.cons_prefix_cons] at hstarts
      obtain ⟨hfirst, hstarts⟩ := hstarts
      have hnext : first + ((count + 1 : Nat) : Int) = first + 1 + count := by push_cast; omega
      rw [hnext] at hunused ⊢
      rw [nextIndex, if_neg (not_not.mpr hfirst.symm)]
      exact ih hstarts fun h => hunused (List.mem_cons_of_mem _ h)

theorem lowestUnused_nextIndex_iff (calls : List CallInfo) :
    LowestUnused (calls.map CallInfo.index) (nextIndex calls 1) ↔
      StartsInOrder (calls.map CallInfo.index) := by
  constructor
  · rintro ⟨-, hunused, -⟩
    obtain ⟨count, hnext, hstarts⟩ := nextIndex_eq calls 1
    exact ⟨count, hstarts, hnext ▸ hunused⟩
  · rintro ⟨count, hstarts, hunused⟩
    rw [nextIndex_of_starts hstarts hunused]
    refine ⟨by omega, hunused, fun j hj hlt => ?_⟩
    exact hstarts.subset (mem_upFrom.mpr ⟨hj, hlt⟩)

namespace CallManager

theorem index_write (address : Nat) (action : CallState) (call : CallInfo) :
    (call.write address action).index = call.index := by
  unfold CallInfo.write
  split_ifs <;> rfl

@[simp]
theorem indices_writeCallState (m : CallManager) (address : Nat) (action : CallState) :
    (m.writeCallState address action).indices = m.indices := by
  simp [indices, writeCallState, index_write]

@[simp]
theorem indices_findCallAndUpdateCallState (m : CallManager) (index : Int) (action : CallState)
    (phoneId : Int) :
    (m.findCallAndUpdateCallState index action phoneId).indices = m.indices := by
  unfold findCallAndUpdateCallState
  split <;> simp

@[simp]
theorem indices_triggerCallInfoChangeEvent (m : CallManager) (index phoneId : Int) :
    (m.triggerCallInfoChangeEvent index phoneId).indices = m.indices := by
  unfold triggerCallInfoChangeEvent
  repeat' split
  all_goals rfl

@[simp]
theorem indices_update (m : CallManager) (phoneId : Int) (state : CallState) (index : Int) :
    (m.update phoneId state index).indices = m.indices := by
  simp [update]

theorem indices_findAndRemoveMatchingCall (m : CallManager) (callIndex : Int) :
    (m.findAndRemoveMatchingCall callIndex).indices.Sublist m.indices := by
  unfold findAndRemoveMatchingCall
  split
  · exact (List.eraseP_sublist).map _
  · exact List.Sublist.refl _

theorem Enters.indices_step {m : CallManager} {e : Event} (h : m.Enters e) :
    (m.step e).indices = m.indices ++ [m.setCallIndexForNewCall] := by
  obtain ⟨call, -, hindex, hstep⟩ := h.step_eq
  rw [hstep, ← hindex]
  simp [indices, emplaceBack]

theorem Redials.indices_step {m : CallManager} {e : Event} (h : m.Redials e) :
    (m.step e).indices = m.indices ++ m.redialECallCache.toList.map CallInfo.index := by
  obtain ⟨redials, phoneId, index, hstep⟩ := h.step_eq
  rw [hstep, indices_update]
  simp [indices, reinsert]

/-- A step that adds no call keeps the order of those that stay. -/
theorem Change.indices_sublist {m m' : CallManager} {e : Event} (h : m.Change e m') :
    m'.indices.Sublist m.indices := by
  cases h with
  | none => exact List.Sublist.refl _
  | cleanUpService => exact List.nil_sublist _
  | update => simp
  | wait => exact List.Sublist.refl _
  | handleHangupRequest => simp
  | changeRttModeOfCall => simp
  | onECallRedial => exact List.Sublist.refl _
  | removal callIndex => exact m.indices_findAndRemoveMatchingCall callIndex

/-- Every call that a step adds gets the lowest index that no call has. -/
def AddsLowest (m : CallManager) (e : Event) : Prop :=
  ∀ call ∈ (m.step e).calls.drop m.calls.length, LowestUnused m.indices call.index

/-- Where a call is made the list starts with the indices in use below the lowest unused one, and
a call that is put back has the lowest unused index. -/
def FindsLowest (m : CallManager) (e : Event) : Prop :=
  (m.Enters e → StartsInOrder m.indices) ∧
    (m.Redials e → ∀ call ∈ m.redialECallCache, LowestUnused m.indices call.index)

theorem addsLowest_iff {m : CallManager} {e : Event} {added : List Int}
    (h : (m.step e).indices = m.indices ++ added) :
    m.AddsLowest e ↔ ∀ i ∈ added, LowestUnused m.indices i := by
  have hadded : ((m.step e).calls.drop m.calls.length).map CallInfo.index = added := by
    have hlength : m.calls.length = m.indices.length := by simp [indices]
    have happend : (m.step e).calls.map CallInfo.index = m.indices ++ added := h
    rw [List.map_drop, hlength, happend, List.drop_left]
  rw [← hadded, List.forall_mem_map]
  rfl

theorem addsLowest_of_sublist {m : CallManager} {e : Event}
    (h : (m.step e).indices.Sublist m.indices) : m.AddsLowest e := by
  have hlength : (m.step e).calls.length ≤ m.calls.length := by
    simpa [indices] using h.length_le
  intro call hcall
  rw [List.drop_eq_nil_of_le hlength] at hcall
  cases hcall

theorem not_enters_of_redials {m : CallManager} {e : Event} (h : m.Redials e) :
    ¬ m.Enters e := by
  cases e <;> first | exact h.elim | exact id

/-- What a step adds is the lowest unused index, and so the indices stay distinct, exactly where
the list stands in order. -/
theorem addsLowest_and_nodup_iff {m : CallManager} (e : Event) (hnodup : m.indices.Nodup) :
    m.AddsLowest e ∧ (m.step e).indices.Nodup ↔ m.FindsLowest e := by
  by_cases henters : m.Enters e
  · have hiff : m.AddsLowest e ↔ StartsInOrder m.indices := by
      rw [addsLowest_iff henters.indices_step, List.forall_mem_singleton]
      exact lowestUnused_nextIndex_iff m.calls
    have hredials : ¬ m.Redials e := fun h => not_enters_of_redials h henters
    constructor
    · rintro ⟨hadds, -⟩
      exact ⟨fun _ => hiff.mp hadds, fun h => (hredials h).elim⟩
    · rintro ⟨horder, -⟩
      have hlowest := (lowestUnused_nextIndex_iff m.calls).mpr (horder henters)
      refine ⟨hiff.mpr (horder henters), ?_⟩
      rw [henters.indices_step, ← List.concat_eq_append]
      exact List.Nodup.concat hlowest.2.1 hnodup
  · by_cases hredials : m.Redials e
    · have hiff := addsLowest_iff hredials.indices_step
      rw [List.forall_mem_map] at hiff
      constructor
      · rintro ⟨hadds, -⟩
        exact ⟨fun h => (henters h).elim,
          fun _ call hcall => hiff.mp hadds call (Option.mem_toList.mpr hcall)⟩
      · rintro ⟨-, hlowest⟩
        have hcache : ∀ call ∈ m.redialECallCache.toList, LowestUnused m.indices call.index :=
          fun call hcall => hlowest hredials call (Option.mem_toList.mp hcall)
        refine ⟨hiff.mpr hcache, ?_⟩
        rw [hredials.indices_step]
        cases hkept : m.redialECallCache with
        | none => simpa using hnodup
        | some call =>
          rw [Option.toList_some, List.map_singleton, ← List.concat_eq_append]
          exact List.Nodup.concat (hcache call (by simp [hkept])).2.1 hnodup
    · have hsub := (change_step henters hredials).indices_sublist
      exact iff_of_true ⟨addsLowest_of_sublist hsub, hnodup.sublist hsub⟩
        ⟨fun h => (henters h).elim, fun h => (hredials h).elim⟩

/-- Every call added in a run gets the lowest unused index, and the indices are distinct in every
state the run comes to. -/
def IndicesLowest (es : List Event) : Prop :=
  Along step AddsLowest new es ∧ ∀ n, ((es.take n).foldl step new).indices.Nodup

/-- The calls of a run get the lowest unused indices and keep distinct ones exactly if the list
stands in order whenever a call is added. -/
theorem indicesLowest_iff (es : List Event) :
    IndicesLowest es ↔ Along step FindsLowest new es := by
  have hnew : new.indices.Nodup := List.nodup_nil
  rw [IndicesLowest, ← along_reached_iff (fun m : CallManager => m.indices.Nodup) hnew,
    ← along_and]
  apply along_congr (fun m : CallManager => m.indices.Nodup) _ _ es hnew
  · intro m e hnodup
    exact addsLowest_and_nodup_iff e hnodup
  · intro m e hnodup hfinds
    exact ((addsLowest_and_nodup_iff e hnodup).mpr hfinds).2

/-- Three calls; the first ends and is removed; two more calls. -/
def threeAndTwo : List Event :=
  let request (number : String) : CallRequest := ⟨1, number, .makeVoiceCall, false⟩
  [.makeCall (request "1"), .makeCall (request "2"), .makeCall (request "3"),
    .changeCallState 1 .ended 1, .removal 1, .makeCall (request "4"), .makeCall (request "5")]

theorem not_indicesLowest_threeAndTwo : ¬ IndicesLowest threeAndTwo := by
  intro h
  have hnodup := h.2 7
  revert hnodup
  decide

end CallManager

end Tel

end SatComm
