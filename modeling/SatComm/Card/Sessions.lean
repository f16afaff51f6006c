import SatComm.Card.Refresh

/-!
# One slot of the card service

`View` is all that concerns one slot: its session, its voters and registered clients and its tasks.
`moves_step` says once what a step does to the view of a slot; what holds in the course of a session
is read off from it.
-/

namespace SatComm

namespace Card

/-- What concerns one slot. -/
structure View where
  slot : Option RefreshEventAndPending
  voters : List ClientSimRefreshPref
  registered : List ClientSimRefreshPref
  tasks : List Task

/-- The task apart from the notification. -/
def Task.plain (t : Task) : Task := { t with notified := false }

namespace Server

def voters (s : Server) (slotId : Int) : List ClientSimRefreshPref :=
  s.refreshVotingClients.filter (·.phoneId = slotId)

def registered (s : Server) (slotId : Int) : List ClientSimRefreshPref :=
  s.refreshRegisterClients.filter (·.phoneId = slotId)

def tasks (s : Server) (slotId : Int) : List Task :=
  (s.taskQ.filter (·.slotId = slotId)).map Task.plain

def view (s : Server) (slotId : Int) : View where
  slot := s.slot? slotId
  voters := s.voters slotId
  registered := s.registered slotId
  tasks := s.tasks slotId

/-- No two tasks have the same number, and each is for a slot that has had a session. -/
structure Sound (s : Server) : Prop where
  lt : ∀ t ∈ s.taskQ, t.id < s.scheduled
  nodup : (s.taskQ.map Task.id).Nodup
  known : ∀ t ∈ s.taskQ, (s.slot? t.slotId).isSome

/-- The task changes the stage of its slot. -/
def acts (s : Server) (t : Task) : Bool :=
  let r := (s.slot? t.slotId).getD default
  !t.cancelled r && r.inProgress

/-- What `updateSimRefreshStage` schedules. -/
def newTask (s : Server) (slotId : Int) (newStage : CardRefreshStage) (delayMs : Nat)
    (checkPendingUserAllow checkPendingUserComplete : Bool) (session : Nat) : Task :=
  ⟨s.scheduled, slotId, newStage, delayMs, checkPendingUserAllow, checkPendingUserComplete, s.now,
    false, session⟩

/-- What a refresh that has started schedules. -/
def endTask (s : Server) (slotId : Int) (r : RefreshEventAndPending) : Task :=
  if r.pendingComplete > 0 && r.confirms then
    s.newTask slotId .endedWithFailure refreshUserCompleteTimeoutMs false true r.course.session
  else s.newTask slotId .endedWithSuccess defaultDelay false false r.course.session

/-- What an injection schedules. -/
def firstTask (s : Server) (slotId : Int) (r : RefreshEventAndPending) : Task :=
  if r.stage = .starting then s.endTask slotId r
  else s.newTask slotId .endedWithFailure refreshUserAllowTimeoutMs true false r.course.session

end Server

/-- The session at a new stage. -/
def RefreshEventAndPending.become (r : RefreshEventAndPending) (stage : CardRefreshStage)
    (now : Nat) : RefreshEventAndPending :=
  if stage = .endedWithFailure then r.clear.enter stage now else r.enter stage now

/-- What a step does to the view of a slot. -/
inductive Moves (s : Server) (k : Int) : Event → View → Prop
  | stays (e : Event) : Moves s k e (s.view k)
  | configured (request : RefreshConfigReq) (voters registered : List ClientSimRefreshPref) :
    (∀ r, s.slot? k = some r → r.inProgress = false) →
    Moves s k (.setupRefreshConfig request)
      { s.view k with voters := voters, registered := registered }
  | injected (p : SimRefresh) :
    getSlotBySessionType p.sessionId = some k →
    (∀ r, s.slot? k = some r → r.inProgress = false) →
    Moves s k (.simRefresh p)
      { s.view k with
        slot := some (s.newRefreshEvt p k)
        tasks := (s.view k).tasks ++ [s.firstTask k (s.newRefreshEvt p k)] }
  | allowed (request : AllowCardRefreshReq) (r : RefreshEventAndPending) :
    request.api.status = .success → s.slot? k = some r → r.stage = .waitingForVotes →
    request.clientInfo.phoneId = k → request.clientInfo ∈ s.voters k →
    request.allowRefresh = true →
    Moves s k (.allowCardRefresh request)
      { s.view k with
        slot := some (r.allow request.clientInfo)
        tasks := (s.view k).tasks ++ if (r.allow request.clientInfo).pendingAllow = 0 then
          [s.newTask k .starting defaultDelay false false r.course.session] else [] }
  | denied (request : AllowCardRefreshReq) (r : RefreshEventAndPending) :
    request.api.status = .success → s.slot? k = some r → r.stage = .waitingForVotes →
    request.clientInfo.phoneId = k → request.clientInfo ∈ s.voters k →
    request.allowRefresh = false →
    Moves s k (.allowCardRefresh request)
      { s.view k with
        slot := some (r.deny request.clientInfo)
        tasks := (s.view k).tasks ++
          [s.newTask k .endedWithFailure 0 false false r.course.session] }
  | confirmed (request : ConfirmRefreshHandlingCompleteReq) (r : RefreshEventAndPending) :
    request.api.status = .success → s.slot? k = some r → r.stage = .starting →
    request.clientInfo.phoneId = k → request.clientInfo ∈ s.registered k →
    request.isCompleted = true →
    Moves s k (.confirmRefreshHandlingCompleted request)
      { s.view k with
        slot := some (r.confirm request.clientInfo)
        tasks := (s.view k).tasks ++ if (r.confirm request.clientInfo).pendingComplete = 0 then
          [s.newTask k .endedWithSuccess defaultDelay false false r.course.session] else [] }
  | passed (t : Task) :
    s.task? t.id = some t → t.slotId = k → s.acts t = false →
    Moves s k (.task t.id)
      { s.view k with tasks := (s.view k).tasks.filter (·.id ≠ t.id) }
  | entered (t : Task) (r : RefreshEventAndPending) :
    s.task? t.id = some t → t.slotId = k → s.slot? k = some r → s.acts t = true →
    t.due s.now = true →
    Moves s k (.task t.id)
      { s.view k with
        slot := some (r.become t.newStage s.now)
        tasks := (s.view k).tasks.filter (·.id ≠ t.id) ++ if t.newStage = .starting then
          [s.endTask k (r.become t.newStage s.now)] else [] }

variable {s : Server} {k k' : Int} {r : RefreshEventAndPending} {t : Task} {id : Nat} {v : View}
  {e : Event}

/-! ## The view of a slot -/

namespace Server

@[simp] theorem slot?_setSlot (s : Server) (k k' : Int) (r : RefreshEventAndPending) :
    (s.setSlot k r).slot? k' = if k' = k then some r else s.slot? k' :=
  Assoc.Map.get?_set s.refreshEvtMap k k' r

@[simp] theorem view_setSlot (s : Server) (k k' : Int) (r : RefreshEventAndPending) :
    (s.setSlot k r).view k' =
      { s.view k' with slot := if k' = k then some r else (s.view k').slot } := by
  rw [view, slot?_setSlot]
  rfl

@[simp] theorem view_notifyAll (s : Server) (k : Int) : s.notifyAll.view k = s.view k := by
  have htasks : s.notifyAll.tasks k = s.tasks k := by
    simp only [tasks, notifyAll, List.filter_map, List.map_map]
    rfl
  rw [view, htasks]
  rfl

theorem view_updateSimRefreshStage (s : Server) (k k' : Int) (newStage : CardRefreshStage)
    (delayMs : Nat) (a c : Bool) (session : Nat) :
    (s.updateSimRefreshStage k newStage delayMs a c session).view k' =
      { s.view k' with
        tasks := (s.view k').tasks ++
          if k = k' then [s.newTask k newStage delayMs a c session] else [] } := by
  have htasks : (s.updateSimRefreshStage k newStage delayMs a c session).tasks k' =
      s.tasks k' ++ if k = k' then [s.newTask k newStage delayMs a c session] else [] := by
    simp only [tasks, updateSimRefreshStage, List.filter_append, List.map_append]
    congr 1
    by_cases hk : k = k'
    · rw [List.filter_singleton, if_pos hk]
      simp only [hk]
      rfl
    · rw [List.filter_singleton, if_neg hk]
      simp [hk]
  rw [view, htasks]
  rfl

theorem view_drop (s : Server) (id : Nat) (k : Int) :
    (s.drop id).view k =
      { s.view k with tasks := (s.view k).tasks.filter (·.id ≠ id) } := by
  have htasks : (s.drop id).tasks k = (s.tasks k).filter (·.id ≠ id) := by
    simp only [tasks, drop, List.filter_filter, List.filter_map]
    congr 1
    apply List.filter_congr
    intro t _
    exact Bool.and_comm _ _
  rw [view, htasks]
  rfl

theorem task?_eq_some (h : s.task? id = some t) : t ∈ s.taskQ ∧ t.id = id := by
  have hid := List.find?_some h
  exact ⟨List.mem_of_find?_eq_some h, of_decide_eq_true hid⟩

theorem mem_tasks {t : Task} : t ∈ s.tasks k ↔ ∃ t' ∈ s.taskQ, t'.slotId = k ∧ t'.plain = t := by
  simp [tasks, and_assoc]

/-- A task with the number of another task is that task. -/
theorem Sound.eq_of_id (h : s.Sound) {t t' : Task} (ht : t ∈ s.taskQ) (ht' : t' ∈ s.taskQ)
    (hid : t.id = t'.id) : t = t' :=
  List.inj_on_of_nodup_map h.nodup ht ht' hid

/-- The tasks of another slot stay. -/
theorem filter_tasks_of_ne (h : s.Sound) (ht : t ∈ s.taskQ) (hk : t.slotId ≠ k) :
    (s.tasks k).filter (·.id ≠ t.id) = s.tasks k := by
  rw [List.filter_eq_self]
  intro t' ht'
  obtain ⟨t'', hmem, hslot, rfl⟩ := mem_tasks.mp ht'
  refine decide_eq_true fun hid => hk ?_
  rw [← h.eq_of_id hmem ht hid, hslot]

theorem view_awaitEnd (s : Server) (k k' : Int) (r : RefreshEventAndPending) :
    (s.awaitEnd k r).view k' =
      { s.view k' with
        tasks := (s.view k').tasks ++ if k = k' then [s.endTask k r] else [] } := by
  have hconfirms : requireConfirmComplete .starting r.refreshEvent.mode
      r.refreshEvent.refreshs.sessionType = r.confirms := rfl
  unfold awaitEnd endTask
  rw [hconfirms]
  split_ifs with hwait hk hk
  all_goals simp [view_updateSimRefreshStage, hk]

theorem view_of_ne {v : View} {x : List Task} (hk : k ≠ k') :
    ({ v with
      slot := if k' = k then some r else v.slot
      tasks := v.tasks ++ if k = k' then x else [] } : View) = v := by
  rw [if_neg (Ne.symm hk), if_neg hk, List.append_nil]

theorem view_of_eq {v : View} {x : List Task} :
    ({ v with
      slot := if k = k then some r else v.slot
      tasks := v.tasks ++ if k = k then x else [] } : View) =
      { v with slot := some r, tasks := v.tasks ++ x } := by
  rw [if_pos rfl, if_pos rfl]

/-! ## What a step does to the view of a slot -/

theorem view_inject (s : Server) (p : SimRefresh) (k k' : Int) :
    (s.inject p k).view k' =
      { s.view k' with
        slot := if k' = k then some (s.newRefreshEvt p k) else (s.view k').slot
        tasks := (s.view k').tasks ++
          if k = k' then [s.firstTask k (s.newRefreshEvt p k)] else [] } := by
  unfold inject firstTask
  dsimp only
  by_cases hstage : (s.newRefreshEvt p k).stage = .starting
  · rw [if_pos hstage, if_pos hstage, view_awaitEnd, view_setSlot]
    rfl
  · rw [if_neg hstage, if_neg hstage, view_setSlot, view_updateSimRefreshStage]

theorem moves_handleSimRefreshInjector (s : Server) (p : SimRefresh) (k : Int) :
    Moves s k (.simRefresh p) ((s.handleSimRefreshInjector p).1.view k) := by
  unfold handleSimRefreshInjector
  cases hslot : getSlotBySessionType p.sessionId with
  | none => exact .stays _
  | some slotId =>
    dsimp only
    split_ifs with hprogress
    · exact .stays _
    · rw [view_inject]
      by_cases hk : slotId = k
      · subst hk
        rw [view_of_eq]
        refine .injected p hslot fun r hr => ?_
        simpa [hr] using hprogress
      · rw [view_of_ne hk]
        exact .stays _

theorem filter_erase_of_false {α : Type} [DecidableEq α] {p : α → Bool} {a : α} (ha : p a = false)
    (l : List α) : (l.erase a).filter p = l.filter p := by
  induction l with
  | nil => rfl
  | cons x l ih =>
    by_cases hx : x = a
    · rw [hx, List.erase_cons_head, List.filter_cons_of_neg (by simp [ha])]
    · rw [List.erase_cons_tail (by simpa using hx), List.filter_cons, List.filter_cons, ih]

theorem filter_updateClientSimRefresh (clients : List ClientSimRefreshPref)
    {usrPref : ClientSimRefreshPref} (hk : usrPref.phoneId ≠ k) (enable : Bool) :
    (updateClientSimRefresh clients usrPref enable).1.filter (·.phoneId = k) =
      clients.filter (·.phoneId = k) := by
  unfold updateClientSimRefresh
  split_ifs
  · rfl
  · exact filter_erase_of_false (p := fun c => decide (c.phoneId = k)) (by simpa using hk) clients
  · simp [hk]
  · rfl

theorem moves_setupRefreshConfig (s : Server) (request : RefreshConfigReq) (k : Int) :
    Moves s k (.setupRefreshConfig request) ((s.setupRefreshConfig request).1.view k) := by
  unfold setupRefreshConfig
  dsimp only
  split_ifs with hstatus hprogress
  · exact .stays _
  · exact .stays _
  · by_cases hk : request.clientInfo.phoneId = k
    · refine .configured request _ _ fun r hr => ?_
      rw [hk] at hprogress
      simpa [hr] using hprogress
    · have hvoters := filter_updateClientSimRefresh s.refreshVotingClients hk request.doVoting
      have hregistered :=
        filter_updateClientSimRefresh s.refreshRegisterClients hk request.isRegister
      have hview : ({ s with
          refreshVotingClients :=
            (updateClientSimRefresh s.refreshVotingClients request.clientInfo request.doVoting).1
          refreshRegisterClients :=
            (updateClientSimRefresh s.refreshRegisterClients request.clientInfo
              request.isRegister).1 } : Server).view k = s.view k := by
        rw [view, voters, registered, hvoters, hregistered]
        rfl
      rw [hview]
      exact .stays _

theorem view_vote (s : Server) (request : AllowCardRefreshReq) (r : RefreshEventAndPending)
    (k : Int) :
    (s.vote request r).view k =
      { s.view k with
        slot := if k = request.clientInfo.phoneId then
          some (if request.allowRefresh then r.allow request.clientInfo
            else r.deny request.clientInfo)
          else (s.view k).slot
        tasks := (s.view k).tasks ++ if request.clientInfo.phoneId = k then
          (if request.allowRefresh then
            if (r.allow request.clientInfo).pendingAllow = 0 then
              [s.newTask request.clientInfo.phoneId .starting defaultDelay false false
                r.course.session] else []
          else [s.newTask request.clientInfo.phoneId .endedWithFailure 0 false false
            r.course.session]) else [] } := by
  unfold vote
  dsimp only
  by_cases hallow : request.allowRefresh
  · rw [if_pos hallow, if_pos hallow, if_pos hallow]
    by_cases hzero : (r.allow request.clientInfo).pendingAllow = 0
    · rw [if_pos hzero, if_pos hzero, view_updateSimRefreshStage, view_notifyAll, view_setSlot]
      rfl
    · rw [if_neg hzero, if_neg hzero, view_setSlot, ite_self, List.append_nil]
  · rw [if_neg hallow, if_neg hallow, if_neg hallow, view_updateSimRefreshStage, view_setSlot]
    rfl

theorem view_complete (s : Server) (request : ConfirmRefreshHandlingCompleteReq)
    (r : RefreshEventAndPending) (hdone : request.isCompleted = true) (k : Int) :
    (s.complete request r).view k =
      { s.view k with
        slot := if k = request.clientInfo.phoneId then some (r.confirm request.clientInfo)
          else (s.view k).slot
        tasks := (s.view k).tasks ++ if request.clientInfo.phoneId = k then
          (if (r.confirm request.clientInfo).pendingComplete = 0 then
            [s.newTask request.clientInfo.phoneId .endedWithSuccess defaultDelay false false
              r.course.session] else []) else [] } := by
  unfold complete
  dsimp only
  rw [if_pos hdone]
  by_cases hzero : (r.confirm request.clientInfo).pendingComplete = 0
  · rw [if_pos hzero, if_pos hzero, view_updateSimRefreshStage, view_notifyAll, view_setSlot]
    rfl
  · rw [if_neg hzero, if_neg hzero, view_setSlot, ite_self, List.append_nil]

theorem view_enterStage (s : Server) (r : RefreshEventAndPending) (newStage : CardRefreshStage)
    (k k' : Int) :
    (s.enterStage k r newStage).view k' =
      { s.view k' with
        slot := if k' = k then some (r.become newStage s.now) else (s.view k').slot
        tasks := (s.view k').tasks ++ if k = k' then
          (if newStage = .starting then [s.endTask k (r.become newStage s.now)] else [])
          else [] } := by
  unfold enterStage
  cases newStage with
  | starting =>
    dsimp only
    rw [view_awaitEnd, view_setSlot]
    rfl
  | endedWithFailure =>
    dsimp only
    rw [view_notifyAll, view_setSlot]
    simp [RefreshEventAndPending.become]
  | waitingForVotes | endedWithSuccess => simp [RefreshEventAndPending.become]

theorem moves_vote {request : AllowCardRefreshReq} (hstatus : request.api.status = .success)
    (hpresent : clientSimRefreshInfoPresent s.refreshVotingClients request.clientInfo)
    (hr : s.slot? request.clientInfo.phoneId = some r) (hstage : r.stage = .waitingForVotes)
    (k : Int) : Moves s k (.allowCardRefresh request) ((s.vote request r).view k) := by
  have hmem : request.clientInfo ∈ s.refreshVotingClients := List.contains_iff_mem.mp hpresent
  rw [view_vote]
  by_cases hk : request.clientInfo.phoneId = k
  · subst hk
    have hvoter : request.clientInfo ∈ s.voters request.clientInfo.phoneId :=
      List.mem_filter.mpr ⟨hmem, decide_eq_true rfl⟩
    rw [view_of_eq]
    by_cases hallow : request.allowRefresh
    · rw [if_pos hallow, if_pos hallow]
      exact .allowed request r hstatus hr hstage rfl hvoter hallow
    · rw [if_neg hallow, if_neg hallow]
      exact .denied request r hstatus hr hstage rfl hvoter (Bool.eq_false_iff.mpr hallow)
  · rw [view_of_ne hk]
    exact .stays _

theorem moves_allowCardRefresh (s : Server) (request : AllowCardRefreshReq) (k : Int) :
    Moves s k (.allowCardRefresh request) ((s.allowCardRefresh request).1.view k) := by
  have hstays := Moves.stays (s := s) (k := k) (.allowCardRefresh request)
  unfold allowCardRefresh
  dsimp only
  split_ifs with hstatus hpresent
  · exact hstays
  · split
    · exact hstays
    · rename_i r hr
      split_ifs with hstage
      · exact hstays
      · exact moves_vote (Decidable.not_not.mp hstatus) hpresent hr (Decidable.not_not.mp hstage) k
  · exact hstays

theorem moves_complete {request : ConfirmRefreshHandlingCompleteReq}
    (hstatus : request.api.status = .success)
    (hpresent : clientSimRefreshInfoPresent s.refreshRegisterClients request.clientInfo)
    (hr : s.slot? request.clientInfo.phoneId = some r) (hstage : r.stage = .starting) (k : Int) :
    Moves s k (.confirmRefreshHandlingCompleted request) ((s.complete request r).view k) := by
  have hmem : request.clientInfo ∈ s.refreshRegisterClients := List.contains_iff_mem.mp hpresent
  by_cases hdone : request.isCompleted = true
  · rw [view_complete s request r hdone]
    by_cases hk : request.clientInfo.phoneId = k
    · subst hk
      rw [view_of_eq]
      have hregistered : request.clientInfo ∈ s.registered request.clientInfo.phoneId :=
        List.mem_filter.mpr ⟨hmem, decide_eq_true rfl⟩
      exact .confirmed request r hstatus hr hstage rfl hregistered hdone
    · rw [view_of_ne hk]
      exact .stays _
  · rw [complete, if_neg hdone]
    exact .stays _

theorem moves_confirmRefreshHandlingCompleted (s : Server)
    (request : ConfirmRefreshHandlingCompleteReq) (k : Int) :
    Moves s k (.confirmRefreshHandlingCompleted request)
      ((s.confirmRefreshHandlingCompleted request).1.view k) := by
  have hstays := Moves.stays (s := s) (k := k) (.confirmRefreshHandlingCompleted request)
  unfold confirmRefreshHandlingCompleted
  dsimp only
  split_ifs with hstatus hpresent
  · exact hstays
  · split
    · exact hstays
    · rename_i r hr
      split_ifs with hconfirm
      · have hstarting : r.stage = .starting := by
          rw [requireConfirmComplete, Bool.and_eq_true] at hconfirm
          exact eq_of_beq hconfirm.1
        exact moves_complete (Decidable.not_not.mp hstatus) hpresent hr hstarting k
      · exact hstays
  · exact hstays

theorem moves_runTask (h : s.Sound) (ht : s.task? t.id = some t) (hdue : t.due s.now = true)
    (k : Int) : Moves s k (.task t.id) (((s.drop t.id).runTask t).view k) := by
  obtain ⟨hmem, -⟩ := task?_eq_some ht
  obtain ⟨r, hr⟩ := Option.isSome_iff_exists.mp (h.known t hmem)
  have hget : ((s.drop t.id).slot? t.slotId).getD default = r := by
    rw [show (s.drop t.id).slot? t.slotId = some r from hr, Option.getD_some]
  have hacts : s.acts t = (!t.cancelled r && r.inProgress) := by rw [acts, hr, Option.getD_some]
  have hpassed : s.acts t = false → Moves s k (.task t.id) ((s.drop t.id).view k) := by
    intro hnot
    rw [view_drop]
    by_cases hk : t.slotId = k
    · exact .passed t ht hk hnot
    · have hfilter : (s.view k).tasks.filter (·.id ≠ t.id) = (s.view k).tasks :=
        filter_tasks_of_ne h hmem hk
      rw [hfilter]
      exact .stays _
  unfold runTask
  dsimp only
  rw [hget]
  split_ifs with hcancelled hprogress
  · exact hpassed (by rw [hacts, hcancelled]; rfl)
  · rw [view_enterStage, view_drop]
    by_cases hk : t.slotId = k
    · subst hk
      rw [view_of_eq]
      exact .entered t r ht rfl hr (by simp [hacts, hcancelled, hprogress]) hdue
    · rw [view_of_ne hk]
      have hfilter : (s.view k).tasks.filter (·.id ≠ t.id) = (s.view k).tasks :=
        filter_tasks_of_ne h hmem hk
      rw [hfilter]
      exact .stays _
  · exact hpassed (by simp [hacts, hprogress])

end Server

theorem moves_step (h : s.Sound) (e : Event) (k : Int) : Moves s k e ((s.step e).view k) := by
  cases e with
  | setupRefreshConfig request => exact s.moves_setupRefreshConfig request k
  | simRefresh p => exact s.moves_handleSimRefreshInjector p k
  | allowCardRefresh request => exact s.moves_allowCardRefresh request k
  | confirmRefreshHandlingCompleted request =>
    exact s.moves_confirmRefreshHandlingCompleted request k
  | elapse ms => exact .stays _
  | task id =>
    unfold Server.step
    dsimp only
    split
    · exact .stays _
    · rename_i t ht
      obtain ⟨-, rfl⟩ := Server.task?_eq_some ht
      split_ifs with hdue
      · exact Server.moves_runTask h ht hdue k
      · exact .stays _

/-! ## The tasks along a run -/

namespace Server.Sound

theorem setSlot (h : s.Sound) (k : Int) (r : RefreshEventAndPending) : (s.setSlot k r).Sound where
  lt := h.lt
  nodup := h.nodup
  known t ht := by
    rw [slot?_setSlot]
    split_ifs
    · rfl
    · exact h.known t ht

theorem notifyAll (h : s.Sound) : s.notifyAll.Sound := by
  have hmem : ∀ t ∈ s.notifyAll.taskQ, ∃ t' ∈ s.taskQ, t'.id = t.id ∧ t'.slotId = t.slotId := by
    intro t ht
    obtain ⟨t', ht', rfl⟩ := List.mem_map.mp ht
    exact ⟨t', ht', rfl, rfl⟩
  refine ⟨?_, ?_, ?_⟩
  · intro t ht
    obtain ⟨t', ht', hid, -⟩ := hmem t ht
    exact hid ▸ h.lt t' ht'
  · simp only [Server.notifyAll, List.map_map]
    exact h.nodup
  · intro t ht
    obtain ⟨t', ht', -, hslot⟩ := hmem t ht
    exact hslot ▸ h.known t' ht'

theorem updateSimRefreshStage (h : s.Sound) (hk : (s.slot? k).isSome)
    (newStage : CardRefreshStage) (delayMs : Nat) (a c : Bool) (session : Nat) :
    (s.updateSimRefreshStage k newStage delayMs a c session).Sound where
  lt := List.forall_mem_append.mpr ⟨fun t ht => Nat.lt_succ_of_lt (h.lt t ht),
    List.forall_mem_singleton.mpr (Nat.lt_succ_self _)⟩
  nodup := by
    simp only [Server.updateSimRefreshStage, List.map_append]
    refine List.Nodup.append h.nodup (List.nodup_singleton _) ?_
    rintro id hid hnew
    obtain ⟨t, ht, rfl⟩ := List.mem_map.mp hid
    exact (h.lt t ht).ne (List.mem_singleton.mp hnew)
  known := List.forall_mem_append.mpr ⟨h.known, List.forall_mem_singleton.mpr hk⟩

theorem awaitEnd (h : s.Sound) (hk : (s.slot? k).isSome) (r : RefreshEventAndPending) :
    (s.awaitEnd k r).Sound := by
  unfold Server.awaitEnd
  split_ifs
  · exact h.updateSimRefreshStage hk ..
  · exact h.updateSimRefreshStage hk ..

theorem drop (h : s.Sound) (id : Nat) : (s.drop id).Sound where
  lt t ht := h.lt t (List.mem_of_mem_filter ht)
  nodup := h.nodup.sublist (List.filter_sublist.map _)
  known t ht := h.known t (List.mem_of_mem_filter ht)

theorem isSome_setSlot (s : Server) (k : Int) (r : RefreshEventAndPending) :
    ((s.setSlot k r).slot? k).isSome := by
  rw [slot?_setSlot, if_pos rfl]
  rfl

theorem inject (h : s.Sound) (p : SimRefresh) (k : Int) : (s.inject p k).Sound := by
  have hset := h.setSlot k (s.newRefreshEvt p k)
  unfold Server.inject
  dsimp only
  split_ifs
  · exact hset.awaitEnd (isSome_setSlot ..) _
  -- the map is written after the call, which only schedules
  · exact hset.updateSimRefreshStage (isSome_setSlot ..) ..

theorem vote (h : s.Sound) (request : AllowCardRefreshReq) (r : RefreshEventAndPending) :
    (s.vote request r).Sound := by
  unfold Server.vote
  dsimp only
  split_ifs
  · exact (h.setSlot _ _).notifyAll.updateSimRefreshStage (isSome_setSlot ..) ..
  · exact h.setSlot _ _
  · exact (h.setSlot _ _).updateSimRefreshStage (isSome_setSlot ..) ..

theorem complete (h : s.Sound) (request : ConfirmRefreshHandlingCompleteReq)
    (r : RefreshEventAndPending) : (s.complete request r).Sound := by
  unfold Server.complete
  dsimp only
  split_ifs
  · exact (h.setSlot _ _).notifyAll.updateSimRefreshStage (isSome_setSlot ..) ..
  · exact h.setSlot _ _
  · exact h

theorem enterStage (h : s.Sound) (k : Int) (r : RefreshEventAndPending)
    (newStage : CardRefreshStage) : (s.enterStage k r newStage).Sound := by
  cases newStage with
  | starting => exact (h.setSlot _ _).awaitEnd (isSome_setSlot ..) _
  | endedWithFailure => exact (h.setSlot _ _).notifyAll
  | waitingForVotes | endedWithSuccess => exact h.setSlot _ _

theorem step (h : s.Sound) (e : Event) : (s.step e).Sound := by
  cases e with
  | setupRefreshConfig request =>
    unfold Server.step setupRefreshConfig
    dsimp only
    split_ifs
    · exact h
    · exact h
    · exact ⟨h.lt, h.nodup, h.known⟩
  | simRefresh p =>
    unfold Server.step handleSimRefreshInjector
    dsimp only
    split
    · exact h
    · split_ifs
      · exact h
      · exact h.inject p _
  | allowCardRefresh request =>
    unfold Server.step allowCardRefresh
    dsimp only
    repeat' split
    all_goals first | exact h | exact h.vote request _
  | confirmRefreshHandlingCompleted request =>
    unfold Server.step confirmRefreshHandlingCompleted
    dsimp only
    repeat' split
    all_goals first | exact h | exact h.complete request _
  | elapse ms => exact ⟨h.lt, h.nodup, h.known⟩
  | task id =>
    unfold Server.step
    dsimp only
    split
    · exact h
    · split_ifs
      · unfold runTask
        dsimp only
        split_ifs
        · exact h.drop id
        · exact (h.drop id).enterStage ..
        · exact h.drop id
      · exact h

end Server.Sound

theorem runs_sound (e : Nat → Event) (n : Nat) : (runs e n).Sound := by
  induction n with
  | zero => exact ⟨nofun, List.nodup_nil, nofun⟩
  | succ n ih => exact ih.step (e n)

/-! ## The task that runs -/

theorem inProgress_iff :
    r.inProgress = true ↔ r.stage = .waitingForVotes ∨ r.stage = .starting := by
  rw [RefreshEventAndPending.inProgress, Bool.or_eq_true, beq_iff_eq, beq_iff_eq]

/-- The task that runs, as its slot has it. -/
theorem mem_view_of_task (ht : s.task? t.id = some t) (hk : t.slotId = k) :
    t.plain ∈ (s.view k).tasks :=
  Server.mem_tasks.mpr ⟨t, (Server.task?_eq_some ht).1, hk, rfl⟩

/-- No other task of the slot has its number. -/
theorem eq_of_mem_view (hs : s.Sound) (ht : s.task? t.id = some t) {t' : Task}
    (ht' : t' ∈ (s.view k).tasks) (hid : t'.id = t.id) : t' = t.plain := by
  obtain ⟨t'', hmem, -, rfl⟩ := Server.mem_tasks.mp ht'
  rw [hs.eq_of_id hmem (Server.task?_eq_some ht).1 hid]

theorem acts_eq (hr : s.slot? t.slotId = some r) :
    s.acts t = (!t.cancelled r && r.inProgress) := by
  rw [Server.acts, hr, Option.getD_some]

theorem stage_become (r : RefreshEventAndPending) (stage : CardRefreshStage) (now : Nat) :
    (r.become stage now).stage = stage := by
  unfold RefreshEventAndPending.become
  split_ifs <;> rfl

theorem course_become (r : RefreshEventAndPending) (stage : CardRefreshStage) (now : Nat) :
    (r.become stage now).course.session = r.course.session := by
  unfold RefreshEventAndPending.become
  split_ifs <;> rfl

theorem stage_newRefreshEvt (s : Server) (p : SimRefresh) (k : Int) :
    (s.newRefreshEvt p k).inProgress = true := by
  have hstage : (s.newRefreshEvt p k).stage =
      if (s.newRefreshEvt p k).pendingAllow = 0 then .starting else .waitingForVotes := rfl
  rw [inProgress_iff, hstage]
  split_ifs
  · exact .inr rfl
  · exact .inl rfl

/-! ## The sessions of the tasks -/

theorem session_endTask (s : Server) (k : Int) (r : RefreshEventAndPending) :
    (s.endTask k r).session = r.course.session := by
  unfold Server.endTask
  split_ifs <;> rfl

theorem session_firstTask (s : Server) (k : Int) (r : RefreshEventAndPending) :
    (s.firstTask k r).session = r.course.session := by
  unfold Server.firstTask
  split_ifs
  · exact session_endTask s k r
  · rfl

/-- The tasks left by earlier sessions have smaller numbers than the new session. -/
theorem session_lt_newRefreshEvt (hs : s.Sound) (h : ∀ r, s.slot? k = some r →
      ∀ t ∈ s.tasks k, t.session ≤ r.course.session) (p : SimRefresh) :
    ∀ t ∈ s.tasks k, t.session < (s.newRefreshEvt p k).course.session := by
  intro t ht
  have hsession : (s.newRefreshEvt p k).course.session =
      (s.slot? k).elim 0 fun r => r.course.session + 1 := rfl
  obtain ⟨t', ht', hk, -⟩ := Server.mem_tasks.mp ht
  obtain ⟨r, hr⟩ := Option.isSome_iff_exists.mp (hk ▸ hs.known t' ht')
  rw [hsession, hr]
  exact Nat.lt_succ_of_le (h r hr t ht)

/-- The numbers of the sessions that tasks were scheduled in. -/
theorem session_of_moves (hs : s.Sound) (h : ∀ r, s.slot? k = some r →
      ∀ t ∈ s.tasks k, t.session ≤ r.course.session) (hm : Moves s k e v) :
    ∀ r, v.slot = some r → ∀ t ∈ v.tasks, t.session ≤ r.course.session := by
  have happend : ∀ {r r' : RefreshEventAndPending} {new : List Task}, s.slot? k = some r →
      r'.course.session = r.course.session → (∀ t ∈ new, t.session = r.course.session) →
      ∀ t ∈ s.tasks k ++ new, t.session ≤ r'.course.session := by
    intro r r' new hr hsame hnew
    rw [hsame]
    exact List.forall_mem_append.mpr ⟨h r hr, fun t ht => (hnew t ht).le⟩
  cases hm with
  | stays => exact h
  | configured request voters registered hprogress => exact h
  | injected p hslot hprogress =>
    rintro r hr
    obtain rfl : s.newRefreshEvt p k = r := Option.some.inj hr
    refine List.forall_mem_append.mpr ⟨fun t ht => ?_, List.forall_mem_singleton.mpr ?_⟩
    · exact (session_lt_newRefreshEvt hs h p t ht).le
    · exact (session_firstTask s k _).le
  | allowed request r hstatus hr hstage hk hc hallow =>
    rintro r' hr'
    obtain rfl : r.allow request.clientInfo = r' := Option.some.inj hr'
    refine happend hr rfl fun t ht => ?_
    split_ifs at ht with hzero
    · obtain rfl := List.mem_singleton.mp ht
      rfl
    · cases ht
  | denied request r hstatus hr hstage hk hc hallow =>
    rintro r' hr'
    obtain rfl : r.deny request.clientInfo = r' := Option.some.inj hr'
    exact happend hr rfl (List.forall_mem_singleton.mpr rfl)
  | confirmed request r hstatus hr hstage hk hc hdone =>
    rintro r' hr'
    obtain rfl : r.confirm request.clientInfo = r' := Option.some.inj hr'
    refine happend hr rfl fun t ht => ?_
    split_ifs at ht with hzero
    · obtain rfl := List.mem_singleton.mp ht
      rfl
    · cases ht
  | passed t ht hk hacts => exact fun r hr t' ht' => h r hr t' (List.mem_of_mem_filter ht')
  | entered t r ht hk hr hacts hdue =>
    rintro r' hr'
    obtain rfl : r.become t.newStage s.now = r' := Option.some.inj hr'
    intro t' ht'
    rw [course_become]
    rcases List.mem_append.mp ht' with ht' | ht'
    · exact h r hr t' (List.mem_of_mem_filter ht')
    · split_ifs at ht'
      · obtain rfl := List.mem_singleton.mp ht'
        rw [session_endTask, course_become]
      · cases ht'

/-! ## Runs with finitely many events -/

/-- A client of the first slot. -/
def client (clientId : UInt32) : ClientSimRefreshPref := ⟨clientId, 1, ⟨.primary, ""⟩⟩

def accepted : ApiConfigure := ⟨.success, .success, 0⟩

/-- The events, and then nothing. -/
def eventually (events : List Event) (n : Nat) : Event := events.getD n (.elapse 0)

theorem forall_eventually {C : Server → Event → Prop} (helapse : ∀ s ms, C s (.elapse ms))
    {events : List Event}
    (h : ∀ n < events.length, C (runs (eventually events) n) (eventually events n)) :
    ∀ n, C (runs (eventually events) n) (eventually events n) := by
  intro n
  by_cases hn : n < events.length
  · exact h n hn
  · have hend : eventually events n = .elapse 0 := by
      rw [eventually, List.getD_eq_getElem?_getD, List.getElem?_eq_none (Nat.le_of_not_lt hn)]
      rfl
    rw [hend]
    exact helapse _ 0

end Card

end SatComm
