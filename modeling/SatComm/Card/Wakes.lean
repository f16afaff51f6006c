import SatComm.Card.Sessions

/-!
# The tasks that a notification wakes

All tasks wait on one condition variable, without a predicate. `notified_of_step` says which steps
notify: the last vote and the last confirmation of a session, and its failure. A task that was woken
looks at a counter; what was 0 stays 0 until the next session of the slot is injected.
-/

namespace SatComm

namespace Card

variable {s s' : Server} {k : Int} {r r' : RefreshEventAndPending} {t : Task} {v : View} {e : Event}
  {woken : Prop}

/-- The step notifies, for the session of this slot. -/
inductive Notifies (s : Server) (k : Int) : Event → Prop
  | voted (request : AllowCardRefreshReq) (r : RefreshEventAndPending) :
    request.api.status = .success → request.clientInfo ∈ s.refreshVotingClients →
    request.clientInfo.phoneId = k → s.slot? k = some r → r.stage = .waitingForVotes →
    request.allowRefresh = true → (r.allow request.clientInfo).pendingAllow = 0 →
    Notifies s k (.allowCardRefresh request)
  | confirmed (request : ConfirmRefreshHandlingCompleteReq) (r : RefreshEventAndPending) :
    request.api.status = .success → request.clientInfo ∈ s.refreshRegisterClients →
    request.clientInfo.phoneId = k → s.slot? k = some r → r.stage = .starting →
    r.confirms = true → request.isCompleted = true → (r.confirm request.clientInfo).pendingComplete = 0 →
    Notifies s k (.confirmRefreshHandlingCompleted request)
  | failed (t : Task) (r : RefreshEventAndPending) :
    s.task? t.id = some t → t.slotId = k → s.slot? k = some r → s.acts t = true →
    t.due s.now = true → t.newStage = .endedWithFailure → Notifies s k (.task t.id)

/-! ## Who is notified -/

/-- A task is notified if it was before, or if there is a reason for it. -/
def Wakes (woken : Prop) (s s' : Server) : Prop :=
  ∀ t' ∈ s'.taskQ, t'.notified = true → ∃ t ∈ s.taskQ, t.plain = t'.plain ∧
    (t.notified = true ∨ woken)

namespace Wakes

theorem of_taskQ_eq (h : Wakes woken s s') {s'' : Server} (htaskQ : s''.taskQ = s'.taskQ) :
    Wakes woken s s'' := by
  unfold Wakes
  rw [htaskQ]
  exact h

/-- A task that is new has not been notified. -/
theorem updateSimRefreshStage (h : Wakes woken s s') {newStage : CardRefreshStage}
    {delayMs : Nat} {a c : Bool} {session : Nat} :
    Wakes woken s (s'.updateSimRefreshStage k newStage delayMs a c session) := by
  intro t ht hn
  rcases List.mem_append.mp ht with hold | hnew
  · exact h t hold hn
  · obtain rfl := List.mem_singleton.mp hnew
    cases hn

theorem awaitEnd (h : Wakes woken s s') : Wakes woken s (s'.awaitEnd k r) := by
  unfold Server.awaitEnd
  split_ifs
  · exact h.updateSimRefreshStage
  · exact h.updateSimRefreshStage

/-- All tasks there are from before are notified. -/
theorem notifyAll (hold : ∀ t ∈ s'.taskQ, t ∈ s.taskQ) (hwoken : woken) :
    Wakes woken s s'.notifyAll := by
  intro t ht _
  obtain ⟨t', ht', rfl⟩ := List.mem_map.mp ht
  exact ⟨t', hold t' ht', rfl, .inr hwoken⟩

theorem of_subset (hold : ∀ t ∈ s'.taskQ, t ∈ s.taskQ) : Wakes woken s s' :=
  fun t ht hn => ⟨t, hold t ht, rfl, .inl hn⟩

theorem inject (p : SimRefresh) (k : Int) : Wakes woken s (s.inject p k) := by
  unfold Server.inject
  dsimp only
  split_ifs
  · exact (of_subset fun _ => id : Wakes woken s (s.setSlot k _)).awaitEnd
  · exact ((of_subset fun _ => id : Wakes woken s s).updateSimRefreshStage).of_taskQ_eq rfl

theorem vote (request : AllowCardRefreshReq)
    (hwoken : request.allowRefresh = true → (r.allow request.clientInfo).pendingAllow = 0 → woken) :
    Wakes woken s (s.vote request r) := by
  unfold Server.vote
  dsimp only
  split_ifs with hallow hzero
  · exact (notifyAll (fun _ => id) (hwoken hallow hzero)).updateSimRefreshStage
  · exact of_subset fun _ => id
  · exact (of_subset fun _ => id : Wakes woken s (s.setSlot _ _)).updateSimRefreshStage

theorem complete (request : ConfirmRefreshHandlingCompleteReq)
    (hwoken : request.isCompleted = true → (r.confirm request.clientInfo).pendingComplete = 0 →
      woken) : Wakes woken s (s.complete request r) := by
  unfold Server.complete
  dsimp only
  split_ifs with hdone hzero
  · exact (notifyAll (fun _ => id) (hwoken hdone hzero)).updateSimRefreshStage
  · exact of_subset fun _ => id
  · exact of_subset fun _ => id

theorem runTask (hacts : s.acts t = true → t.newStage = .endedWithFailure → woken) :
    Wakes woken s ((s.drop t.id).runTask t) := by
  have hdrop : ∀ t' ∈ (s.drop t.id).taskQ, t' ∈ s.taskQ := fun _ => List.mem_of_mem_filter
  unfold Server.runTask
  dsimp only
  split_ifs with hcancelled hprogress
  · exact of_subset hdrop
  · have hwoken := hacts (Bool.and_eq_true_iff.mpr
      ⟨(Bool.not_eq_true' _).mpr (Bool.eq_false_of_not_eq_true hcancelled), hprogress⟩)
    have hset : ∀ r, Wakes woken s ((s.drop t.id).setSlot t.slotId r) := fun _ => of_subset hdrop
    unfold Server.enterStage
    cases hstage : t.newStage with
    | starting => exact (hset _).awaitEnd
    | endedWithFailure => exact notifyAll hdrop (hwoken hstage)
    | waitingForVotes | endedWithSuccess => exact hset _
  · exact of_subset hdrop

end Wakes

/-- A task that is notified was before, or the step notifies. -/
theorem notified_of_step (hs : s.Sound) (e : Event) :
    Wakes (∃ k, Notifies s k e) s (s.step e) := by
  have hsame : ∀ {e}, Wakes (∃ k, Notifies s k e) s s := fun {_} => .of_subset fun _ => id
  cases e with
  | setupRefreshConfig request =>
    unfold Server.step Server.setupRefreshConfig
    dsimp only
    split_ifs
    · exact hsame
    · exact hsame
    · exact hsame.of_taskQ_eq rfl
  | simRefresh p =>
    unfold Server.step Server.handleSimRefreshInjector
    dsimp only
    split
    · exact hsame
    · split_ifs
      · exact hsame
      · exact .inject p _
  | allowCardRefresh request =>
    unfold Server.step Server.allowCardRefresh
    dsimp only
    split_ifs with hstatus hpresent
    · exact hsame
    · split
      · exact hsame
      · rename_i r hr
        split_ifs with hstage
        · exact hsame
        · refine .vote request fun hallow hzero => ⟨request.clientInfo.phoneId, ?_⟩
          exact .voted request r (Decidable.not_not.mp hstatus) (List.contains_iff_mem.mp hpresent)
            rfl hr (Decidable.not_not.mp hstage) hallow hzero
    · exact hsame
  | confirmRefreshHandlingCompleted request =>
    unfold Server.step Server.confirmRefreshHandlingCompleted
    dsimp only
    split_ifs with hstatus hpresent
    · exact hsame
    · split
      · exact hsame
      · rename_i r hr
        split_ifs with hconfirm
        · refine .complete request fun hdone hzero => ⟨request.clientInfo.phoneId, ?_⟩
          rw [requireConfirmComplete, Bool.and_eq_true] at hconfirm
          exact .confirmed request r (Decidable.not_not.mp hstatus)
            (List.contains_iff_mem.mp hpresent) rfl hr (eq_of_beq hconfirm.1) hconfirm.2 hdone hzero
        · exact hsame
    · exact hsame
  | elapse ms => exact hsame.of_taskQ_eq rfl
  | task id =>
    unfold Server.step
    dsimp only
    split
    · exact hsame
    · rename_i t ht
      obtain ⟨-, rfl⟩ := Server.task?_eq_some ht
      split_ifs with hdue
      · refine .runTask fun hacts hstage => ⟨t.slotId, ?_⟩
        obtain ⟨r, hr⟩ := Option.isSome_iff_exists.mp (hs.known t (Server.task?_eq_some ht).1)
        exact .failed t r ht rfl hr hacts hdue hstage
      · exact hsame

/-! ## How a session goes on -/

/-- Counters that are 0 stay so, and a session that is over stays over. -/
structure Continues (r r' : RefreshEventAndPending) : Prop where
  session : r'.course.session = r.course.session
  allow : r.pendingAllow = 0 → r'.pendingAllow = 0
  complete : r.pendingComplete = 0 → r'.pendingComplete = 0
  progress : r'.inProgress = true → r.inProgress = true

theorem Continues.refl (r : RefreshEventAndPending) : Continues r r := ⟨rfl, id, id, id⟩

/-- A task that finds its counter at 0 will do so later. -/
theorem Continues.cancelled (h : Continues r r') (hc : t.cancelled r = true) :
    t.cancelled r' = true := by
  simp only [Task.cancelled, Bool.or_eq_true, Bool.and_eq_true, beq_iff_eq] at hc ⊢
  exact hc.imp (And.imp_right h.allow) (And.imp_right h.complete)

theorem countDown_zero {x : UInt32} (h : x = 0) : (if x > 0 then x - 1 else x) = 0 := by
  rw [h]
  rfl

theorem continues_become (hin : r.inProgress = true) (stage : CardRefreshStage) (now : Nat) :
    Continues r (r.become stage now) := by
  refine ⟨course_become r stage now, ?_, ?_, fun _ => hin⟩
  all_goals
    unfold RefreshEventAndPending.become
    split_ifs
    · exact fun _ => rfl
    · exact id

/-- A session goes on, or is injected. -/
theorem continues_of_moves (hm : Moves s k e v) (hr' : v.slot = some r') :
    (∃ r, s.slot? k = some r ∧ Continues r r') ∨
      ∃ p, e = .simRefresh p ∧ getSlotBySessionType p.sessionId = some k ∧
        (∀ r, s.slot? k = some r → r.inProgress = false) ∧ r' = s.newRefreshEvt p k := by
  cases hm with
  | stays | configured | passed => exact .inl ⟨r', hr', .refl r'⟩
  | injected p hslot hprogress =>
    exact .inr ⟨p, rfl, hslot, hprogress, (Option.some.inj hr').symm⟩
  | allowed request r hstatus hr hstage hk hc hallow =>
    obtain rfl : r.allow request.clientInfo = r' := Option.some.inj hr'
    exact .inl ⟨r, hr, rfl, countDown_zero, id, id⟩
  | denied request r hstatus hr hstage hk hc hallow =>
    obtain rfl : r.deny request.clientInfo = r' := Option.some.inj hr'
    exact .inl ⟨r, hr, rfl, id, id, id⟩
  | confirmed request r hstatus hr hstage hk hc hdone =>
    obtain rfl : r.confirm request.clientInfo = r' := Option.some.inj hr'
    exact .inl ⟨r, hr, rfl, id, countDown_zero, id⟩
  | entered t r ht hk hr hacts hdue =>
    obtain rfl : r.become t.newStage s.now = r' := Option.some.inj hr'
    refine .inl ⟨r, hr, continues_become ?_ _ _⟩
    rw [acts_eq (hk ▸ hr), Bool.and_eq_true] at hacts
    exact hacts.2

/-- The tasks of a slot are from before, or of the session that runs. -/
theorem tasks_of_moves (hm : Moves s k e v) (hr' : v.slot = some r') :
    ∀ t ∈ v.tasks, t ∈ s.tasks k ∨ t.session = r'.course.session := by
  cases hm with
  | stays | configured => exact fun _ => .inl
  | passed => exact fun _ ht => .inl (List.mem_of_mem_filter ht)
  | injected p hslot hprogress =>
    obtain rfl : s.newRefreshEvt p k = r' := Option.some.inj hr'
    exact List.forall_mem_append.mpr ⟨fun _ => .inl,
      List.forall_mem_singleton.mpr (.inr (session_firstTask s k _))⟩
  | allowed request r hstatus hr hstage hk hc hallow =>
    obtain rfl : r.allow request.clientInfo = r' := Option.some.inj hr'
    refine List.forall_mem_append.mpr ⟨fun _ => .inl, fun t ht => .inr ?_⟩
    split_ifs at ht
    · obtain rfl := List.mem_singleton.mp ht
      rfl
    · cases ht
  | denied request r hstatus hr hstage hk hc hallow =>
    obtain rfl : r.deny request.clientInfo = r' := Option.some.inj hr'
    exact List.forall_mem_append.mpr ⟨fun _ => .inl, List.forall_mem_singleton.mpr (.inr rfl)⟩
  | confirmed request r hstatus hr hstage hk hc hdone =>
    obtain rfl : r.confirm request.clientInfo = r' := Option.some.inj hr'
    refine List.forall_mem_append.mpr ⟨fun _ => .inl, fun t ht => .inr ?_⟩
    split_ifs at ht
    · obtain rfl := List.mem_singleton.mp ht
      rfl
    · cases ht
  | entered t r ht hk hr hacts hdue =>
    obtain rfl : r.become t.newStage s.now = r' := Option.some.inj hr'
    refine List.forall_mem_append.mpr ⟨fun _ ht => .inl (List.mem_of_mem_filter ht),
      fun t' ht' => .inr ?_⟩
    split_ifs at ht'
    · obtain rfl := List.mem_singleton.mp ht'
      exact session_endTask s k _
    · cases ht'

end Card

end SatComm
