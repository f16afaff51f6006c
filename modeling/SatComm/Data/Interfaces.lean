import SatComm.Data.Connection

/-!
# The interfaces of the data calls

`activeNwIfaces_` is written by the start task that creates a call and by the stop of a call, the
maps of the two slots by the start task, the stop request and the clean-up. Between a stop request
and its task the interface belongs to the pending stop. Counted so, every active interface belongs
to one call or one stop, as long as a new call takes an interface that is not active and a call
whose stop is pending has left its map.
-/

namespace SatComm

namespace Data

open Runs

namespace DataConnectionServer

/-- The interfaces of the cached calls of both slots. -/
def callIfaces (s : DataConnectionServer) : List String :=
  (s.dataCallsSlot1.values ++ s.dataCallsSlot2.values).map DataCallParams.ifaceName

/-- With no task pending the active interfaces are those of the cached calls, each once. -/
def Booked (s : DataConnectionServer) : Prop :=
  s.startTasks = [] → s.stopTasks = [] →
    s.activeNwIfaces.Perm s.callIfaces ∧ s.activeNwIfaces.Nodup

instance : DecidablePred Booked := fun _ => inferInstanceAs (Decidable (_ → _ → _ ∧ _))

/-- The interface that a start task has for a new call: the one of the request, or the first of
the configuration that is not active. -/
def startIface (s : DataConnectionServer) (task : StartTask) (physicalInterfaceName : String) :
    String :=
  if task.ifaceName = "" then (s.getInactiveInterfaces physicalInterfaceName).headD ""
  else task.ifaceName

theorem newIface_refresh (s : DataConnectionServer) (task : StartTask) (conf : String) :
    (s.refresh task conf).newIface task = s.startIface task conf := by
  rw [refresh, newIface, startIface]
  split_ifs <;> rfl

/-- A start task that creates a call takes an interface that is not active and writes over no
other call; the last owner stops with the family of the call. -/
def KeepsIfaces (s : DataConnectionServer) : Event → Prop
  | .stopDatacall request data => s.EndsWithFamily request data
  | .startTask n physicalInterfaceName _ _ => ∀ task ∈ s.startTasks[n]?,
    s.dataCall? task.slotId task.profileId = none →
      s.startIface task physicalInterfaceName ∉ s.activeNwIfaces ∧
        (task.slotId = 1 ∨ s.dataCallsSlot2.get? task.profileId = none)
  | .startDatacall .. | .cleanUpService _ | .stopTask _ | .stopActiveDataCalls _ => True

instance (s : DataConnectionServer) : DecidablePred s.KeepsIfaces
  | .stopDatacall request data => inferInstanceAs (Decidable (s.EndsWithFamily request data))
  | .startTask .. => inferInstanceAs (Decidable (∀ task ∈ _, _ → _ ∧ (_ ∨ _)))
  | .startDatacall .. | .cleanUpService _ | .stopTask _ | .stopActiveDataCalls _ =>
    inferInstanceAs (Decidable True)

/-- The invariant: the interface of a call is active until its stop task has run. -/
structure Tracked (s : DataConnectionServer) : Prop where
  perm : s.activeNwIfaces.Perm (s.callIfaces ++ s.stopTasks.map StopTask.ifaceName)
  nodup : s.activeNwIfaces.Nodup

theorem Tracked.booked {s : DataConnectionServer} (h : s.Tracked) : s.Booked := by
  intro _ hstop
  refine ⟨?_, h.nodup⟩
  simpa [hstop] using h.perm

theorem tracked_new : new.Tracked := ⟨List.Perm.refl _, List.nodup_nil⟩

/-! ## The interfaces after a write to the maps -/

variable {s : DataConnectionServer} {slotId profileId : Int} {call : DataCallParams}

/-- The call that `cache` writes over. -/
def overwritten (s : DataConnectionServer) (slotId profileId : Int) : Option DataCallParams :=
  if slotId = 1 then s.dataCallsSlot1.get? profileId else s.dataCallsSlot2.get? profileId

theorem overwritten_of_dataCall? (h : s.dataCall? slotId profileId = some call) :
    s.overwritten slotId profileId = some call := by
  rw [dataCall?] at h
  rw [overwritten]
  split_ifs at h ⊢ <;> exact h

theorem callIfaces_eq (s : DataConnectionServer) :
    s.callIfaces = s.dataCallsSlot1.values.map DataCallParams.ifaceName ++
      s.dataCallsSlot2.values.map DataCallParams.ifaceName := List.map_append

theorem callIfaces_cache_new (call : DataCallParams)
    (h : s.overwritten slotId profileId = none) :
    (s.cache slotId profileId call).callIfaces.Perm (call.ifaceName :: s.callIfaces) := by
  rw [overwritten] at h
  rw [cache, callIfaces_eq, callIfaces_eq]
  split_ifs at h ⊢
  · exact ((Assoc.Map.values_set h call).map _).append_right _
  · exact (((Assoc.Map.values_set h call).map _).append_left _).trans List.perm_middle

theorem callIfaces_cache {old : DataCallParams} (h : s.overwritten slotId profileId = some old)
    (hiface : call.ifaceName = old.ifaceName) :
    (s.cache slotId profileId call).callIfaces.Perm s.callIfaces := by
  rw [overwritten] at h
  rw [cache, callIfaces_eq, callIfaces_eq]
  split_ifs at h ⊢
  · obtain ⟨rest, hold, hnew⟩ := Assoc.Map.exists_values_set h
    apply List.Perm.append_right
    refine ((hnew call).map _).trans (List.Perm.trans ?_ (hold.map _).symm)
    rw [List.map_cons, List.map_cons, hiface]
  · obtain ⟨rest, hold, hnew⟩ := Assoc.Map.exists_values_set h
    apply List.Perm.append_left
    refine ((hnew call).map _).trans (List.Perm.trans ?_ (hold.map _).symm)
    rw [List.map_cons, List.map_cons, hiface]

theorem callIfaces_uncache (h : s.overwritten slotId profileId = some call) :
    s.callIfaces.Perm (call.ifaceName :: (s.uncache slotId profileId).callIfaces) := by
  rw [overwritten] at h
  rw [uncache, callIfaces_eq, callIfaces_eq]
  split_ifs at h ⊢
  · exact ((Assoc.Map.values_erase h).map _).append_right _
  · exact (((Assoc.Map.values_erase h).map _).append_left _).trans List.perm_middle

@[simp]
theorem activeNwIfaces_cache (s : DataConnectionServer) (slotId profileId : Int)
    (call : DataCallParams) :
    (s.cache slotId profileId call).activeNwIfaces = s.activeNwIfaces := by
  rw [cache]
  split <;> rfl

@[simp]
theorem activeNwIfaces_uncache (s : DataConnectionServer) (slotId profileId : Int) :
    (s.uncache slotId profileId).activeNwIfaces = s.activeNwIfaces := by
  rw [uncache]
  split <;> rfl

/-- Rewriting the parameters of a call, not its interface. -/
theorem Tracked.cache {old : DataCallParams} (h : s.Tracked)
    (hold : s.dataCall? slotId profileId = some old) (hiface : call.ifaceName = old.ifaceName) :
    (s.cache slotId profileId call).Tracked := by
  have hcalls := callIfaces_cache (overwritten_of_dataCall? hold) hiface
  constructor
  · rw [activeNwIfaces_cache, (sameTasks_cache s slotId profileId call).stopTasks]
    exact h.perm.trans (hcalls.symm.append_right _)
  · rw [activeNwIfaces_cache]
    exact h.nodup

theorem Tracked.keep {task : StartTask} (h : s.Tracked)
    (hnew : s.overwritten task.slotId task.profileId = none)
    (hiface : call.ifaceName ∉ s.activeNwIfaces) : (s.keep task call).Tracked := by
  rw [DataConnectionServer.keep]
  have hcalls := callIfaces_cache_new call (s := { s with
    inactiveNwIfaces := s.inactiveNwIfaces.erase call.ifaceName
    activeNwIfaces := s.activeNwIfaces ++ [call.ifaceName] }) hnew
  constructor
  · rw [activeNwIfaces_cache, (sameTasks_cache _ _ _ call).stopTasks]
    refine List.perm_append_singleton _ _ |>.trans ?_
    exact (h.perm.cons _).trans (hcalls.symm.append_right _)
  · rw [activeNwIfaces_cache]
    exact List.nodup_append_comm.mp (List.nodup_cons.mpr ⟨hiface, h.nodup⟩)

theorem Tracked.refresh (h : s.Tracked) (task : StartTask) (conf : String) :
    (s.refresh task conf).Tracked := by
  rw [DataConnectionServer.refresh]
  split_ifs
  · exact ⟨h.perm, h.nodup⟩
  · exact h

theorem overwritten_refresh (s : DataConnectionServer) (task : StartTask) (conf : String) :
    (s.refresh task conf).overwritten = s.overwritten := by
  rw [DataConnectionServer.refresh]
  split_ifs <;> rfl

theorem activeNwIfaces_refresh (s : DataConnectionServer) (task : StartTask) (conf : String) :
    (s.refresh task conf).activeNwIfaces = s.activeNwIfaces := by
  rw [DataConnectionServer.refresh]
  split_ifs <;> rfl

/-! ## The operations -/

theorem Tracked.startDatacall (h : s.Tracked) (request : DataCallInputParams) (data : ApiResult)
    (allowed : Bool) : (s.startDatacall request data allowed).Tracked := by
  rw [DataConnectionServer.startDatacall]
  split_ifs
  · cases hcall : s.dataCall? request.slotId request.profileId with
    | none => exact ⟨h.perm, h.nodup⟩
    | some dataCall =>
      have hjoin : (s.cache request.slotId request.profileId (dataCall.join
          (convertIpFamilyEnumToString request.ipFamilyType) request.clientId)).Tracked :=
        h.cache hcall rfl
      dsimp only
      split_ifs
      · exact ⟨hjoin.perm, hjoin.nodup⟩
      · exact hjoin
  · exact h

theorem Tracked.stopDatacall (h : s.Tracked) {request : DataCallInputParams} {data : ApiResult}
    (hfamily : s.EndsWithFamily request (some data)) : (s.stopDatacall request data).Tracked := by
  rw [DataConnectionServer.stopDatacall]
  split_ifs with hs
  · cases hcall : s.dataCall? request.slotId request.profileId with
    | none => exact h
    | some dataCall =>
      dsimp only
      split_ifs with hleft
      · exact h.cache hcall rfl
      · have heq := hfamily data rfl hs dataCall hcall (not_not.mp hleft)
        have hcalls := callIfaces_uncache (overwritten_of_dataCall? hcall)
        rw [endCall, if_pos heq]
        constructor
        · -- the interface passes from the call to the pending stop
          rw [List.map_append, (sameTasks_uncache s _ _).stopTasks, activeNwIfaces_uncache]
          refine h.perm.trans ((hcalls.append_right _).trans ?_)
          exact (List.perm_append_singleton _ _).symm.trans (List.Perm.of_eq (by simp [callIfaces]))
        · rw [activeNwIfaces_uncache]
          exact h.nodup
  · exact h

theorem Tracked.triggerStartDataCallEvent (h : s.Tracked) {task : StartTask}
    {physicalInterfaceName ipv4 ipv6 : String}
    (hnew : s.dataCall? task.slotId task.profileId = none →
      s.startIface task physicalInterfaceName ∉ s.activeNwIfaces ∧
        (task.slotId = 1 ∨ s.dataCallsSlot2.get? task.profileId = none)) :
    (s.triggerStartDataCallEvent task physicalInterfaceName ipv4 ipv6).Tracked := by
  have h' := h.refresh task physicalInterfaceName
  have hcalls := dataCall?_refresh s task physicalInterfaceName
  have hover := overwritten_refresh s task physicalInterfaceName
  have hactive := activeNwIfaces_refresh s task physicalInterfaceName
  have hstart := newIface_refresh s task physicalInterfaceName
  rw [DataConnectionServer.triggerStartDataCallEvent]
  generalize s.refresh task physicalInterfaceName = r at *
  dsimp only
  cases hcall : r.dataCall? task.slotId task.profileId with
  | some call => exact h'.cache hcall rfl
  | none =>
    dsimp only
    split_ifs
    · rw [hcalls] at hcall
      obtain ⟨hiface, hslot⟩ := hnew hcall
      apply h'.keep
      · rw [hover, overwritten]
        split_ifs with h1
        · rw [dataCall?, if_pos h1] at hcall
          exact hcall
        · exact hslot.resolve_left h1
      · rw [hactive]
        exact (congrArg (· ∉ s.activeNwIfaces) hstart).mpr hiface
    · exact h'

theorem Tracked.stopTask (h : s.Tracked) {n : Nat} {task : StopTask}
    (hn : s.stopTasks[n]? = some task) :
    ({ s with stopTasks := s.stopTasks.eraseIdx n }.triggerStopDataCallEvent
      task.ifaceName).Tracked := by
  obtain ⟨hlt, rfl⟩ := List.getElem?_eq_some_iff.mp hn
  have hperm := (List.getElem_cons_eraseIdx_perm hlt).map StopTask.ifaceName
  have hmiddle : s.activeNwIfaces.Perm (s.stopTasks[n].ifaceName ::
      (s.callIfaces ++ (s.stopTasks.eraseIdx n).map StopTask.ifaceName)) :=
    h.perm.trans ((hperm.symm.append_left _).trans List.perm_middle)
  constructor
  · have herase := hmiddle.erase s.stopTasks[n].ifaceName
    rwa [List.erase_cons_head] at herase
  · exact h.nodup.erase _

/-! ## Calls that end together -/

theorem activeNwIfaces_foldl (calls : List DataCallParams) {rest : List String}
    (h : s.activeNwIfaces.Perm (calls.map DataCallParams.ifaceName ++ rest)) :
    (calls.foldl (fun s call => s.triggerStopDataCallEvent call.ifaceName) s).activeNwIfaces.Perm
      rest := by
  induction calls generalizing s with
  | nil => exact h
  | cons call calls ih =>
    apply ih
    have herase := h.erase call.ifaceName
    rwa [List.map_cons, List.cons_append, List.erase_cons_head] at herase

theorem nodup_stopCalls (stopAllCalls : Bool) (clientId : Int) (dataCalls : DataCalls)
    (h : s.activeNwIfaces.Nodup) :
    (stopCalls stopAllCalls clientId dataCalls s).activeNwIfaces.Nodup := by
  rw [stopCalls]
  induction dataCalls.values.filter _ generalizing s with
  | nil => exact h
  | cons call calls ih => exact ih (h.erase _)

/-- The interfaces of a map are those of the calls that end and of those that stay. -/
theorem ifaces_clearCachedDataCall (stopAllCalls : Bool) (clientId : Int) (dataCalls : DataCalls) :
    (dataCalls.values.map DataCallParams.ifaceName).Perm
      ((dataCalls.values.filter fun call => Ends stopAllCalls clientId call).map
          DataCallParams.ifaceName ++
        (clearCachedDataCall stopAllCalls clientId dataCalls).values.map
          DataCallParams.ifaceName) := by
  rw [clearCachedDataCall, Assoc.Map.values_filterMap]
  induction dataCalls.values with
  | nil => exact List.Perm.refl _
  | cons call calls ih =>
    by_cases hends : Ends stopAllCalls clientId call
    · simpa [hends] using ih
    · simpa [hends, DataCallParams.leave] using (ih.cons call.ifaceName).trans
        List.perm_middle.symm

theorem Tracked.clearSlot1 (h : s.Tracked) (stopAllCalls : Bool) (clientId : Int) :
    (s.clearSlot1 stopAllCalls clientId).Tracked := by
  have hsame := sameCalls_stopCalls stopAllCalls clientId s.dataCallsSlot1 s
  have hifaces := ifaces_clearCachedDataCall stopAllCalls clientId s.dataCallsSlot1
  constructor
  · apply activeNwIfaces_foldl
    refine h.perm.trans ?_
    simp only [callIfaces_eq, DataConnectionServer.clearSlot1, hsame.slot2,
      hsame.tasks.stopTasks]
    rw [← List.append_assoc, ← List.append_assoc]
    exact (hifaces.append_right _).append_right _
  · exact nodup_stopCalls _ _ _ h.nodup

theorem Tracked.clearSlot2 (h : s.Tracked) (stopAllCalls : Bool) (clientId : Int) :
    (s.clearSlot2 stopAllCalls clientId).Tracked := by
  have hsame := sameCalls_stopCalls stopAllCalls clientId s.dataCallsSlot2 s
  have hifaces := ifaces_clearCachedDataCall stopAllCalls clientId s.dataCallsSlot2
  constructor
  · apply activeNwIfaces_foldl
    refine h.perm.trans ?_
    simp only [callIfaces_eq, DataConnectionServer.clearSlot2, hsame.slot1,
      hsame.tasks.stopTasks]
    rw [← List.append_assoc]
    apply List.Perm.append_right
    refine (hifaces.append_left _).trans ?_
    rw [← List.append_assoc, ← List.append_assoc]
    exact List.perm_append_comm.append_right _
  · exact nodup_stopCalls _ _ _ h.nodup

theorem Tracked.stopActiveDataCalls (h : s.Tracked) (slotId : Int) :
    (s.stopActiveDataCalls slotId).Tracked := by
  rw [DataConnectionServer.stopActiveDataCalls]
  split_ifs
  · exact h.clearSlot1 true 0
  · exact h.clearSlot2 true 0
  · exact h

/-! ## Runs -/

theorem Tracked.step (h : s.Tracked) {s' : DataConnectionServer} {e : Event}
    (hkeeps : s.KeepsIfaces e) (hstep : s.step e = some s') : s'.Tracked := by
  cases e with
  | startDatacall request data allowed =>
    cases data with
    | none => exact Option.some.inj hstep ▸ h
    | some d => exact Option.some.inj hstep ▸ h.startDatacall request d allowed
  | stopDatacall request data =>
    cases data with
    | none => exact Option.some.inj hstep ▸ h
    | some d => exact Option.some.inj hstep ▸ h.stopDatacall hkeeps
  | cleanUpService clientId =>
    exact Option.some.inj hstep ▸ (h.clearSlot1 false clientId).clearSlot2 false clientId
  | startTask n physicalInterfaceName ipv4 ipv6 =>
    obtain ⟨task, htask, rfl⟩ := Option.map_eq_some_iff.mp hstep
    have htaken : Tracked { s with startTasks := s.startTasks.eraseIdx n } := ⟨h.perm, h.nodup⟩
    apply htaken.triggerStartDataCallEvent
    intro hnone
    exact hkeeps task htask hnone
  | stopTask n =>
    obtain ⟨task, htask, rfl⟩ := Option.map_eq_some_iff.mp hstep
    exact h.stopTask htask
  | stopActiveDataCalls slotId => exact Option.some.inj hstep ▸ h.stopActiveDataCalls slotId

/-- Where no start task takes an active interface and the last owner names the family of its call,
the active interfaces are those of the cached calls. -/
theorem booked_of_keepsIfaces (h : Reachable step KeepsIfaces new s) : s.Booked := by
  apply Tracked.booked
  apply h.invariant tracked_new
  intro s e s' hok hstep hs
  exact hs.step hok hstep

/-- A call of each slot, the first of which is stopped again. -/
def startAndStop : List Event :=
  let request (slotId : Int) (ifaceName : String) : DataCallInputParams :=
    ⟨slotId, 5, .ipv4, 1, ifaceName⟩
  let api : ApiResult := ⟨.success, .success⟩
  [.startDatacall (request 1 "") (some api) true, .startTask 0 "eth0" "192.168.1.10" "",
    .startDatacall (request 2 "eth1") (some api) true, .startTask 0 "eth0" "192.168.2.10" "",
    .stopDatacall (request 1 "") (some api), .stopTask 0]

theorem start_and_stop_booked :
    ∃ s : DataConnectionServer, s.activeNwIfaces = ["eth1"] ∧ s.Booked := by
  obtain ⟨s, hs, hf⟩ := exists_reachable_of_run step KeepsIfaces new
    (fun s => s.activeNwIfaces) ["eth1"] startAndStop (by decide)
  exact ⟨s, hf, booked_of_keepsIfaces hs⟩

/-- Two starts that name the same interface before the task of the first has run. -/
def sameIface : List Event :=
  let request (profileId : Int) : DataCallInputParams := ⟨1, profileId, .ipv4, 1, "eth0"⟩
  let api : ApiResult := ⟨.success, .success⟩
  [.startDatacall (request 5) (some api) true, .startDatacall (request 6) (some api) true,
    .startTask 0 "eth0" "192.168.1.10" "", .startTask 0 "eth0" "192.168.1.10" ""]

/-- The interface is active twice, for two cached calls. -/
theorem same_iface_not_booked : ∃ s, Reachable step Considered new s ∧ ¬ s.Booked := by
  obtain ⟨s, hs, hf⟩ := exists_reachable_of_run step Considered new
    (fun s => (s.startTasks, s.stopTasks, s.activeNwIfaces)) ([], [], ["eth0", "eth0"])
    sameIface (by decide)
  obtain ⟨hstart, hf⟩ := Prod.mk.inj hf
  obtain ⟨hstop, hactive⟩ := Prod.mk.inj hf
  refine ⟨s, hs, fun hbooked => ?_⟩
  have hnodup := (hbooked hstart hstop).2
  rw [hactive] at hnodup
  simp at hnodup

end DataConnectionServer

end Data

end SatComm
