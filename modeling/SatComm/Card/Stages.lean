import SatComm.Card.Voting
import SatComm.Card.Wakes

/-!
# The stages of a refresh

A session that waits for votes starts or fails, one that has started ends with success or failure.
What holds of its stages, and that it fails for its own reasons, is shown for the runs in which no
notification for a session of one slot ends the wait of a time-out of the other, the tasks that
earlier sessions have left find the counters of the next at 0, and nobody votes any more once the
votes are complete. That a task which then changes the stage has waited its full time, and is of
the session that runs, follows from that.
-/

namespace SatComm

namespace Card

/-- The stages that a session reports in the end. A refresh that is denied, or is not allowed in
time, does not start. -/
def courses (hasVoters : Bool) : List (List CardRefreshStage) :=
  if hasVoters then
    [[.waitingForVotes, .starting, .endedWithSuccess],
      [.waitingForVotes, .starting, .endedWithFailure], [.waitingForVotes, .endedWithFailure]]
  else [[.starting, .endedWithSuccess], [.starting, .endedWithFailure]]

/-- The stages reported so far can be continued to a whole course. -/
def InOrder (r : RefreshEventAndPending) : Prop :=
  ∃ stages ∈ courses r.course.hasVoters, r.course.reported <+: stages

/-- A voter has denied the refresh, or the time for what the session waits for is over. -/
def MayFail (r : RefreshEventAndPending) (now : Nat) : Prop :=
  r.course.denied ≠ [] ∨
    r.stage = .waitingForVotes ∧ r.course.injectedAt + refreshUserAllowTimeoutMs ≤ now ∨
    r.stage = .starting ∧ r.course.startedAt + refreshUserCompleteTimeoutMs ≤ now

structure Staged (e : Nat → Event) : Prop where
  inOrder : ∀ n k r, (runs e n).slot? k = some r → InOrder r
  failure : ∀ n k r, (runs e n).slot? k = some r →
    Enters k .endedWithFailure (runs e n) (runs e (n + 1)) → MayFail r (runs e n).now

/-- The task looks at a counter after its wait: it is a time-out. -/
def Task.waitsForClients (t : Task) : Bool := t.checkPendingUserAllow || t.checkPendingUserComplete

/-- No time-out of another slot that would take effect is still to elapse. -/
def Undisturbed (s : Server) (k : Int) : Prop :=
  ∀ t ∈ s.taskQ, t.slotId ≠ k → t.waitsForClients = true → s.acts t = true →
    t.start + t.delayMs ≤ s.now

instance (s : Server) (k : Int) : Decidable (Undisturbed s k) := by
  unfold Undisturbed
  infer_instance

/-- Voters can be counted with 32 bits, and the tasks that are left find the counters of a new
session at 0; nobody allows what all have allowed; and whoever notifies disturbs no time-out of the
other slot. -/
def Punctual (s : Server) : Event → Prop
  | .simRefresh p => ∀ k ∈ getSlotBySessionType p.sessionId,
      (∀ r ∈ s.slot? k, r.inProgress = false) → s.refreshVotingClients.length < 2 ^ 32 ∧
        ∀ t ∈ s.taskQ, t.slotId = k → t.cancelled (s.newRefreshEvt p k) = true
  | .allowCardRefresh request => ∀ r ∈ s.slot? request.clientInfo.phoneId,
      request.api.status = .success → request.clientInfo ∈ s.refreshVotingClients →
        request.allowRefresh = true → r.stage = .waitingForVotes → r.pendingAllow ≠ 0 ∧
          (r.pendingAllow = 1 → Undisturbed s request.clientInfo.phoneId)
  | .confirmRefreshHandlingCompleted request => ∀ r ∈ s.slot? request.clientInfo.phoneId,
      request.api.status = .success → request.clientInfo ∈ s.refreshRegisterClients →
        request.isCompleted = true → r.stage = .starting → r.confirms = true →
          r.pendingComplete ≤ 1 → Undisturbed s request.clientInfo.phoneId
  | .task id => ∀ t ∈ s.task? id, t.newStage = .endedWithFailure → s.acts t = true →
      t.due s.now = true → Undisturbed s t.slotId
  | .setupRefreshConfig _ | .elapse _ => True

instance (s : Server) (e : Event) : Decidable (Punctual s e) :=
  match e with
  | .simRefresh _ | .allowCardRefresh _ | .task _ | .setupRefreshConfig _
  | .confirmRefreshHandlingCompleted _ | .elapse _ => by
    unfold Punctual
    infer_instance

/-! ## What a session has reported, and what it has scheduled -/

/-- What the session has scheduled the task for. -/
def Timed (r : RefreshEventAndPending) (t : Task) : Prop :=
  match t.newStage with
  | .waitingForVotes => False
  | .starting => r.stage = .waitingForVotes ∧ r.pendingAllow = 0 ∧ t.waitsForClients = false
  | .endedWithSuccess => r.stage = .starting ∧ t.waitsForClients = false
  | .endedWithFailure => r.course.denied ≠ [] ∧ t.waitsForClients = false ∨
      t.checkPendingUserAllow = true ∧
        t.start + t.delayMs = r.course.injectedAt + refreshUserAllowTimeoutMs ∨
      r.stage = .starting ∧ t.checkPendingUserComplete = true ∧
        t.start + t.delayMs = r.course.startedAt + refreshUserCompleteTimeoutMs

/-- What the session has reported before this stage. -/
def before (hasVoters : Bool) (stage : CardRefreshStage) : List CardRefreshStage :=
  if hasVoters = true ∧ stage = .starting then [.waitingForVotes] else []

structure Running (v : View) (r : RefreshEventAndPending) : Prop where
  reported : r.course.reported = before r.course.hasVoters r.stage ++ [r.stage]
  voters : r.stage = .waitingForVotes → r.course.hasVoters = true
  votes : r.stage = .starting → r.pendingAllow = 0
  tasks : ∀ t ∈ v.tasks, t.session = r.course.session → Timed r t
  once : ∀ t ∈ v.tasks, ∀ t' ∈ v.tasks, t.session = r.course.session →
    t'.session = r.course.session → t.newStage = .starting → t'.newStage = .starting →
    t.id = t'.id

structure StageInv (v : View) : Prop where
  session : ∀ r, v.slot = some r → ∀ t ∈ v.tasks, t.session ≤ r.course.session
  running : ∀ r, v.slot = some r → r.inProgress = true → Running v r
  left : ∀ r, v.slot = some r → r.inProgress = true → ∀ t ∈ v.tasks,
    t.session = r.course.session ∨ t.cancelled r = true
  ended : ∀ r, v.slot = some r → r.inProgress = false →
    r.course.reported ∈ courses r.course.hasVoters

variable {s : Server} {k : Int} {r r' : RefreshEventAndPending} {v : View} {e : Event} {t : Task}
  {c : ClientSimRefreshPref} {now : Nat}

theorem Running.inOrder (h : Running v r) (hin : r.inProgress = true) : InOrder r := by
  unfold InOrder
  rw [h.reported]
  rcases inProgress_iff.mp hin with hstage | hstage
  · rw [h.voters hstage, hstage]
    exact ⟨[.waitingForVotes, .endedWithFailure], by decide, by decide⟩
  · rw [hstage]
    cases r.course.hasVoters with
    | true => exact ⟨[.waitingForVotes, .starting, .endedWithSuccess], by decide, by decide⟩
    | false => exact ⟨[.starting, .endedWithSuccess], by decide, by decide⟩

theorem StageInv.inOrder (h : StageInv v) (hr : v.slot = some r) : InOrder r := by
  cases hin : r.inProgress with
  | true => exact (h.running r hr hin).inOrder hin
  | false => exact ⟨r.course.reported, h.ended r hr hin, List.prefix_refl _⟩

/-- The votes and confirmations do not change what the tasks are for. -/
theorem Timed.mono (h : Timed r t) (hstage : r'.stage = r.stage)
    (hallow : r.pendingAllow = 0 → r'.pendingAllow = 0)
    (hdenied : r.course.denied ≠ [] → r'.course.denied ≠ [])
    (hinjected : r'.course.injectedAt = r.course.injectedAt)
    (hstarted : r'.course.startedAt = r.course.startedAt) : Timed r' t := by
  unfold Timed at h ⊢
  rw [hstage, hinjected, hstarted]
  split at h
  · exact h
  · exact ⟨h.1, hallow h.2.1, h.2.2⟩
  · exact h
  · exact h.imp_left (And.imp_left hdenied)

namespace Running

theorem allow (h : Running (s.view k) r) (hstage : r.stage = .waitingForVotes)
    (hpending : r.pendingAllow ≠ 0) :
    Running { s.view k with
      slot := some (r.allow c)
      tasks := (s.view k).tasks ++ if (r.allow c).pendingAllow = 0 then
        [s.newTask k .starting defaultDelay false false r.course.session] else [] }
      (r.allow c) := by
  have hold : ∀ t ∈ s.tasks k, t.session = r.course.session → t.newStage ≠ .starting := by
    intro t ht hsession hstart
    have htimed := h.tasks t ht hsession
    rw [Timed, hstart] at htimed
    exact hpending htimed.2.1
  have hnew : ∀ t ∈ s.tasks k ++ (if (r.allow c).pendingAllow = 0 then
      [s.newTask k .starting defaultDelay false false r.course.session] else []),
      t.session = r.course.session → t.newStage = .starting → t.id = s.scheduled := by
    intro t ht hsession hstart
    rcases List.mem_append.mp ht with ht | ht
    · exact absurd hstart (hold t ht hsession)
    · split_ifs at ht
      · obtain rfl := List.mem_singleton.mp ht
        rfl
      · cases ht
  refine
    { reported := h.reported
      voters := h.voters
      votes := fun hstart => absurd (hstart.symm.trans hstage) nofun
      tasks := ?_
      once := fun t ht t' ht' hsession hsession' hstart hstart' =>
        (hnew t ht hsession hstart).trans (hnew t' ht' hsession' hstart').symm }
  intro t ht hsession
  rcases List.mem_append.mp ht with ht | ht
  · exact (h.tasks t ht hsession).mono rfl (fun hzero => absurd hzero hpending) id rfl rfl
  · split_ifs at ht with hzero
    · obtain rfl := List.mem_singleton.mp ht
      exact ⟨hstage, hzero, rfl⟩
    · cases ht

/-- Tasks that do not start the refresh can be added. -/
theorem schedule (h : Running v r) (r' : RefreshEventAndPending)
    (hreported : r'.course.reported = r.course.reported)
    (hvoters : r'.course.hasVoters = r.course.hasVoters) (hstage : r'.stage = r.stage)
    (hsession : r'.course.session = r.course.session)
    (hallow : r'.pendingAllow = r.pendingAllow)
    (hmono : ∀ t, Timed r t → Timed r' t) (slot : Option RefreshEventAndPending) {new : List Task}
    (hnew : ∀ t ∈ new, Timed r' t ∧ t.newStage ≠ .starting) :
    Running { v with slot := slot, tasks := v.tasks ++ new } r' := by
  have hold : ∀ t ∈ v.tasks ++ new, t.newStage = .starting → t ∈ v.tasks := by
    intro t ht hstart
    rcases List.mem_append.mp ht with ht | ht
    · exact ht
    · exact absurd hstart (hnew t ht).2
  refine ⟨?_, ?_, ?_, ?_, ?_⟩
  · rw [hreported, hvoters, hstage]
    exact h.reported
  · rw [hstage, hvoters]
    exact h.voters
  · rw [hstage, hallow]
    exact h.votes
  · intro t ht hs
    rcases List.mem_append.mp ht with ht | ht
    · exact hmono t (h.tasks t ht (hs.trans hsession))
    · exact (hnew t ht).1
  · intro t ht t' ht' hs hs' hstart hstart'
    exact h.once t (hold t ht hstart) t' (hold t' ht' hstart') (hs.trans hsession)
      (hs'.trans hsession) hstart hstart'

theorem filter (h : Running v r) (p : Task → Bool) :
    Running { v with tasks := v.tasks.filter p } r :=
  { h with
    tasks := fun t ht => h.tasks t (List.mem_of_mem_filter ht)
    once := fun t ht t' ht' =>
      h.once t (List.mem_of_mem_filter ht) t' (List.mem_of_mem_filter ht') }

/-- The refresh starts. -/
theorem start (h : Running (s.view k) r) (hstage : r.stage = .waitingForVotes)
    (hzero : r.pendingAllow = 0) (ht : s.task? t.id = some t) (hk : t.slotId = k)
    (hsession : t.session = r.course.session) (hstart : t.newStage = .starting) :
    Running { s.view k with
      slot := some (r.enter .starting s.now)
      tasks := (s.view k).tasks.filter (·.id ≠ t.id) ++ [s.endTask k (r.enter .starting s.now)] }
      (r.enter .starting s.now) := by
  have hvoters := h.voters hstage
  have hother : ∀ t' ∈ (s.view k).tasks.filter (·.id ≠ t.id), t'.session = r.course.session →
      t'.newStage ≠ .starting := by
    intro t' ht' hsession' hstart'
    obtain ⟨hmem, hid⟩ := List.mem_filter.mp ht'
    exact of_decide_eq_true hid
      (h.once t' hmem t.plain (mem_view_of_task ht hk) hsession' hsession hstart' hstart)
  have hend : (s.endTask k (r.enter .starting s.now)).newStage ≠ .starting ∧
      Timed (r.enter .starting s.now) (s.endTask k (r.enter .starting s.now)) := by
    unfold Server.endTask
    split_ifs
    · exact ⟨nofun, .inr (.inr ⟨rfl, rfl, rfl⟩)⟩
    · exact ⟨nofun, rfl, rfl⟩
  have hnone : ∀ t' ∈ (s.view k).tasks.filter (·.id ≠ t.id) ++
      [s.endTask k (r.enter .starting s.now)], t'.session = r.course.session →
      t'.newStage ≠ .starting :=
    List.forall_mem_append.mpr ⟨hother, List.forall_mem_singleton.mpr fun _ => hend.1⟩
  refine
    { reported := ?_
      voters := nofun
      votes := fun _ => hzero
      tasks := ?_
      once := fun t' ht' _ _ hsession' _ hstart' => absurd hstart' (hnone t' ht' hsession') }
  · show r.course.reported ++ [.starting] = before r.course.hasVoters .starting ++ [.starting]
    rw [h.reported, hstage, hvoters]
    rfl
  · intro t' ht' hsession'
    rcases List.mem_append.mp ht' with hold | hnew
    · have htimed := h.tasks t' (List.mem_of_mem_filter hold) hsession'
      have hnot := hother t' hold hsession'
      unfold Timed at htimed ⊢
      split at htimed
      · exact htimed
      · exact absurd ‹_› hnot
      · exact absurd (hstage.symm.trans htimed.1) nofun
      · rcases htimed with hdenied | hallow | hcomplete
        · exact .inl hdenied
        · exact .inr (.inl hallow)
        · exact absurd (hstage.symm.trans hcomplete.1) nofun
    · obtain rfl := List.mem_singleton.mp hnew
      exact hend.2

theorem inject (hlen : s.refreshVotingClients.length < 2 ^ 32) (p : SimRefresh)
    (hold : ∀ t ∈ s.tasks k, t.session < (s.newRefreshEvt p k).course.session) :
    Running { s.view k with
      slot := some (s.newRefreshEvt p k)
      tasks := (s.view k).tasks ++ [s.firstTask k (s.newRefreshEvt p k)] }
      (s.newRefreshEvt p k) := by
  have hallow : (s.newRefreshEvt p k).pendingAllow.toNat = s.refreshVotingClients.length :=
    UInt32.toNat_ofNat_of_lt' hlen
  have hstage : (s.newRefreshEvt p k).stage =
      if (s.newRefreshEvt p k).pendingAllow = 0 then .starting else .waitingForVotes := rfl
  have hzero : (s.newRefreshEvt p k).stage = .starting →
      (s.newRefreshEvt p k).pendingAllow.toNat = 0 := by
    intro hstart
    by_contra hne
    rw [if_neg (mt eq_zero_iff_toNat.mp hne), hstart] at hstage
    cases hstage
  have hvoters : (s.newRefreshEvt p k).course.hasVoters = !s.refreshVotingClients.isEmpty := rfl
  have hreported : (s.newRefreshEvt p k).course.reported = [(s.newRefreshEvt p k).stage] := rfl
  have hfirst : (s.firstTask k (s.newRefreshEvt p k)).newStage ≠ .starting ∧
      Timed (s.newRefreshEvt p k) (s.firstTask k (s.newRefreshEvt p k)) := by
    unfold Server.firstTask Server.endTask
    split_ifs with hstart hwait
    · exact ⟨nofun, .inr (.inr ⟨hstart, rfl, rfl⟩)⟩
    · exact ⟨nofun, hstart, rfl⟩
    · exact ⟨nofun, .inr (.inl ⟨rfl, rfl⟩)⟩
  have hnone : ∀ t ∈ s.tasks k ++ [s.firstTask k (s.newRefreshEvt p k)],
      t.session = (s.newRefreshEvt p k).course.session → t.newStage ≠ .starting :=
    List.forall_mem_append.mpr ⟨fun t ht hsession => absurd hsession (hold t ht).ne,
      List.forall_mem_singleton.mpr fun _ => hfirst.1⟩
  refine
    { reported := ?_
      voters := ?_
      votes := ?_
      tasks := List.forall_mem_append.mpr ⟨fun t ht hsession => absurd hsession (hold t ht).ne,
        List.forall_mem_singleton.mpr fun _ => hfirst.2⟩
      once := fun t ht _ _ hsession _ hstart => absurd hstart (hnone t ht hsession) }
  · have hbefore : before (s.newRefreshEvt p k).course.hasVoters (s.newRefreshEvt p k).stage =
        [] := by
      rw [before, if_neg]
      rintro ⟨hsome, hstart⟩
      have hnil := List.eq_nil_of_length_eq_zero (hallow.symm.trans (hzero hstart))
      rw [hvoters, hnil] at hsome
      cases hsome
    rw [hreported, hbefore]
    rfl
  · intro hwaiting
    rw [hvoters, Bool.not_eq_true', List.isEmpty_eq_false_iff]
    intro hnil
    rw [hnil] at hallow
    rw [if_pos (eq_zero_iff_toNat.mpr hallow), hwaiting] at hstage
    cases hstage
  · exact fun hstart => eq_zero_iff_toNat.mpr (hzero hstart)

end Running

/-! ## What a step keeps -/

/-- A task that changes the stage was scheduled for it by the session that runs. -/
theorem timed_of_acts (h : StageInv (s.view k)) (hmem : t.plain ∈ (s.view k).tasks)
    (hk : t.slotId = k) (hr : s.slot? k = some r) (hacts : s.acts t = true) :
    r.inProgress = true ∧ t.session = r.course.session ∧ Running (s.view k) r ∧ Timed r t := by
  rw [acts_eq (hk ▸ hr), Bool.and_eq_true, Bool.not_eq_true'] at hacts
  obtain ⟨hcancelled, hin⟩ := hacts
  have hrunning := h.running r hr hin
  have hsession : t.session = r.course.session := by
    rcases h.left r hr hin t.plain hmem with hsame | hleft
    · exact hsame
    · exact absurd (hcancelled.symm.trans hleft) nofun
  exact ⟨hin, hsession, hrunning, hrunning.tasks t.plain hmem hsession⟩

/-- The reports of a session that ends. -/
theorem Running.end_mem_courses (h : Running v r) (hin : r.inProgress = true)
    {stage : CardRefreshStage}
    (hend : stage = .endedWithFailure ∨ stage = .endedWithSuccess ∧ r.stage = .starting) :
    r.course.reported ++ [stage] ∈ courses r.course.hasVoters := by
  rw [h.reported]
  rcases inProgress_iff.mp hin with hstage | hstage
  · rw [h.voters hstage, hstage]
    rcases hend with rfl | ⟨-, hstart⟩
    · decide
    · exact absurd (hstage.symm.trans hstart) nofun
  · rw [hstage]
    rcases hend with rfl | ⟨rfl, -⟩
    all_goals cases r.course.hasVoters <;> decide

theorem reported_become (r : RefreshEventAndPending) (stage : CardRefreshStage) (now : Nat) :
    (r.become stage now).course.reported = r.course.reported ++ [stage] ∧
      (r.become stage now).course.hasVoters = r.course.hasVoters := by
  unfold RefreshEventAndPending.become
  split_ifs <;> exact ⟨rfl, rfl⟩

/-- A task that is left from an earlier session goes on finding its counter at 0. -/
theorem left_of_moves (h : StageInv (s.view k)) (hp : Punctual s e) (hm : Moves s k e v) :
    ∀ r', v.slot = some r' → r'.inProgress = true → ∀ t ∈ v.tasks,
      t.session = r'.course.session ∨ t.cancelled r' = true := by
  intro r' hr' hin t ht
  rcases tasks_of_moves hm hr' t ht with hold | hsession
  · rcases continues_of_moves hm hr' with ⟨r, hr, hgoes⟩ | ⟨p, rfl, hslot, hprogress, rfl⟩
    · rw [hgoes.session]
      exact (h.left r hr (hgoes.progress hin) t hold).imp_right hgoes.cancelled
    · obtain ⟨t', hmem, hk, rfl⟩ := Server.mem_tasks.mp hold
      exact .inr ((hp k hslot hprogress).2 t' hmem hk)
  · exact .inl hsession

/-- A session that goes on running. -/
theorem stageInv_of_running
    (hsession : ∀ r, v.slot = some r → ∀ t ∈ v.tasks, t.session ≤ r.course.session)
    (hleft : ∀ r, v.slot = some r → r.inProgress = true → ∀ t ∈ v.tasks,
      t.session = r.course.session ∨ t.cancelled r = true)
    (hslot : v.slot = some r) (hin : r.inProgress = true) (hrunning : Running v r) :
    StageInv v := by
  refine ⟨hsession, fun r' hr' _ => ?_, hleft, fun r' hr' hin' => ?_⟩
  · obtain rfl : r = r' := Option.some.inj (hslot.symm.trans hr')
    exact hrunning
  · obtain rfl : r = r' := Option.some.inj (hslot.symm.trans hr')
    exact absurd (hin.symm.trans hin') nofun

/-- A task that leaves its session running starts the refresh. -/
theorem Running.become (h : Running (s.view k) r) (htimed : Timed r t)
    (ht : s.task? t.id = some t) (hk : t.slotId = k) (hsession : t.session = r.course.session)
    (hin : (r.become t.newStage s.now).inProgress = true) :
    Running { s.view k with
      slot := some (r.become t.newStage s.now)
      tasks := (s.view k).tasks.filter (·.id ≠ t.id) ++ if t.newStage = .starting then
        [s.endTask k (r.become t.newStage s.now)] else [] } (r.become t.newStage s.now) := by
  rw [inProgress_iff, stage_become r t.newStage s.now] at hin
  rcases hin with hnew | hnew
  · rw [Timed, hnew] at htimed
    exact htimed.elim
  · have hbecome : r.become t.newStage s.now = r.enter .starting s.now := by
      rw [hnew]
      rfl
    rw [Timed, hnew] at htimed
    rw [if_pos hnew, hbecome]
    exact h.start htimed.1 htimed.2.1 ht hk hsession hnew

/-- A task that ends its session ends it as a course does. -/
theorem Running.reported_become (h : Running v r) (hin : r.inProgress = true) (htimed : Timed r t)
    (hend : (r.become t.newStage now).inProgress = false) :
    (r.become t.newStage now).course.reported ∈
      courses (r.become t.newStage now).course.hasVoters := by
  obtain ⟨hreported, hvoters⟩ := Card.reported_become r t.newStage now
  rw [hreported, hvoters]
  refine h.end_mem_courses hin ?_
  rw [RefreshEventAndPending.inProgress, stage_become r t.newStage now] at hend
  cases hnew : t.newStage with
  | waitingForVotes | starting =>
    rw [hnew] at hend
    cases hend
  | endedWithSuccess =>
    rw [Timed, hnew] at htimed
    exact .inr ⟨rfl, htimed.1⟩
  | endedWithFailure => exact .inl rfl

theorem stageInv_of_moves (hs : s.Sound) (h : StageInv (s.view k)) (hp : Punctual s e)
    (hm : Moves s k e v) : StageInv v := by
  have hsession := session_of_moves hs h.session hm
  have hleft := left_of_moves h hp hm
  cases hm with
  | stays => exact h
  | configured request voters registered hprogress =>
    refine ⟨hsession, fun r hr hin => ?_, hleft, h.ended⟩
    rw [hprogress r hr] at hin
    cases hin
  | injected p hslot hprogress =>
    exact stageInv_of_running hsession hleft rfl (stage_newRefreshEvt s p k)
      (.inject (hp k hslot hprogress).1 p (session_lt_newRefreshEvt hs h.session p))
  | allowed request r hstatus hr hstage hk hc hallow =>
    have hin : r.inProgress = true := inProgress_iff.mpr (.inl hstage)
    refine stageInv_of_running hsession hleft rfl hin ((h.running r hr hin).allow hstage ?_)
    exact (hp r (hk ▸ hr) hstatus (List.mem_of_mem_filter hc) hallow hstage).1
  | denied request r hstatus hr hstage hk hc hallow =>
    have hin : r.inProgress = true := inProgress_iff.mpr (.inl hstage)
    have happend : r.course.denied ++ [request.clientInfo] ≠ [] :=
      List.append_ne_nil_of_right_ne_nil _ nofun
    refine stageInv_of_running hsession hleft rfl hin ?_
    refine (h.running r hr hin).schedule (r.deny request.clientInfo) rfl rfl rfl rfl rfl
      (fun t ht => ht.mono rfl id (fun _ => happend) rfl rfl) _ ?_
    exact List.forall_mem_singleton.mpr ⟨.inl ⟨happend, rfl⟩, nofun⟩
  | confirmed request r hstatus hr hstage hk hc hdone =>
    have hin : r.inProgress = true := inProgress_iff.mpr (.inr hstage)
    refine stageInv_of_running hsession hleft rfl hin ?_
    refine (h.running r hr hin).schedule (r.confirm request.clientInfo) rfl rfl rfl rfl rfl
      (fun t ht => ht.mono rfl id id rfl rfl) _ fun t ht => ?_
    split_ifs at ht
    · obtain rfl := List.mem_singleton.mp ht
      exact ⟨⟨hstage, rfl⟩, nofun⟩
    · cases ht
  | passed t ht hk hacts =>
    exact ⟨hsession, fun r hr hin => (h.running r hr hin).filter _, hleft, h.ended⟩
  | entered t r ht hk hr hacts hdue =>
    obtain ⟨hin, hcurrent, hrunning, htimed⟩ :=
      timed_of_acts h (mem_view_of_task ht hk) hk hr hacts
    refine ⟨hsession, fun r' hr' hin' => ?_, hleft, fun r' hr' hin' => ?_⟩
    · obtain rfl : r.become t.newStage s.now = r' := Option.some.inj hr'
      exact hrunning.become htimed ht hk hcurrent hin'
    · obtain rfl : r.become t.newStage s.now = r' := Option.some.inj hr'
      exact hrunning.reported_become hin htimed hin'

/-! ## The time-outs -/

/-- A time-out that was woken and takes effect has elapsed. -/
def Timely (s : Server) : Prop :=
  ∀ t ∈ s.taskQ, t.notified = true → t.waitsForClients = true → s.acts t = true →
    t.start + t.delayMs ≤ s.now

theorem Timely.elapsed (h : Timely s) (ht : s.task? t.id = some t)
    (hwaits : t.waitsForClients = true) (hacts : s.acts t = true) (hdue : t.due s.now = true) :
    t.start + t.delayMs ≤ s.now := by
  rw [Task.due, Bool.or_eq_true, decide_eq_true_eq] at hdue
  rcases hdue with hnotified | helapsed
  · exact h t (Server.task?_eq_some ht).1 hnotified hwaits hacts
  · exact helapsed

theorem acts_of_plain_eq {t t' : Task} (h : t.plain = t'.plain) : s.acts t = s.acts t' := by
  change s.acts t.plain = s.acts t'.plain
  rw [h]

/-- A task that takes effect after a step would have done so before. -/
theorem acts_of_step (hs : s.Sound) (hp : Punctual s e) (ht : t ∈ s.taskQ) {t' : Task}
    (ht' : t' ∈ (s.step e).taskQ) (hplain : t.plain = t'.plain)
    (hacts : (s.step e).acts t' = true) : s.acts t = true := by
  have hk : t'.slotId = t.slotId := (congrArg Task.slotId hplain).symm
  obtain ⟨r', hr'⟩ := Option.isSome_iff_exists.mp ((hs.step e).known t' ht')
  rw [← acts_of_plain_eq hplain, acts_eq (hk ▸ hr'), Bool.and_eq_true, Bool.not_eq_true'] at hacts
  obtain ⟨hcancelled, hin⟩ := hacts
  rcases continues_of_moves (moves_step hs e t.slotId) (hk ▸ hr') with
    ⟨r, hr, hgoes⟩ | ⟨p, rfl, hslot, hprogress, rfl⟩
  · rw [acts_eq hr, Bool.and_eq_true, Bool.not_eq_true']
    refine ⟨Bool.eq_false_of_not_eq_true fun hc => ?_, hgoes.progress hin⟩
    exact absurd (hcancelled.symm.trans (hgoes.cancelled hc)) nofun
  · exact absurd (hcancelled.symm.trans ((hp _ hslot hprogress).2 t ht rfl)) nofun

/-- Whoever notifies disturbs no other slot. -/
theorem undisturbed_of_notifies (hp : Punctual s e) (h : Notifies s k e) : Undisturbed s k := by
  cases h with
  | voted request r hstatus hc hk hr hstage hallow hzero =>
    subst hk
    obtain ⟨hne, hlast⟩ := hp r hr hstatus hc hallow hstage
    refine hlast ?_
    have hnat := toNat_allow r request.clientInfo
    rw [eq_zero_iff_toNat.mp hzero] at hnat
    have hpos : r.pendingAllow.toNat ≠ 0 := mt eq_zero_iff_toNat.mpr hne
    exact UInt32.toNat_inj.mp (show r.pendingAllow.toNat = 1 by omega)
  | confirmed request r hstatus hc hk hr hstage hconfirms hdone hzero =>
    subst hk
    refine hp r hr hstatus hc hdone hstage hconfirms ?_
    have hnat := toNat_confirm r request.clientInfo
    rw [eq_zero_iff_toNat.mp hzero] at hnat
    exact UInt32.le_iff_toNat_le.mpr (show r.pendingComplete.toNat ≤ 1 by omega)
  | failed t r ht hk hr hacts hdue hstage =>
    subst hk
    exact hp t ht hstage hacts hdue

/-- The session that a notification is for, before the step and after it. -/
theorem slot_of_notifies (h : Notifies s k e) : ∃ r r', s.slot? k = some r ∧
    (s.step e).slot? k = some r' ∧ (r.stage = .waitingForVotes ∧ r'.pendingAllow = 0 ∨
      r.stage = .starting ∧ r'.pendingComplete = 0 ∨ r'.inProgress = false) := by
  cases h with
  | voted request r hstatus hc hk hr hstage hallow hzero =>
    subst hk
    refine ⟨r, r.allow request.clientInfo, hr, ?_, .inl ⟨hstage, hzero⟩⟩
    have hstep : s.step (.allowCardRefresh request) = s.vote request r := by
      have hpresent := List.contains_iff_mem.mpr hc
      simp only [Server.step, Server.allowCardRefresh, clientSimRefreshInfoPresent, hstatus,
        hpresent, hr, hstage, ne_eq, not_true, if_false]
    have hview := congrArg View.slot (Server.view_vote s request r request.clientInfo.phoneId)
    rw [if_pos rfl, if_pos hallow] at hview
    rw [hstep]
    exact hview
  | confirmed request r hstatus hc hk hr hstage hconfirms hdone hzero =>
    subst hk
    refine ⟨r, r.confirm request.clientInfo, hr, ?_, .inr (.inl ⟨hstage, hzero⟩)⟩
    have hstep : s.step (.confirmRefreshHandlingCompleted request) = s.complete request r := by
      have hpresent := List.contains_iff_mem.mpr hc
      have hrequired : requireConfirmComplete r.stage r.refreshEvent.mode
          r.refreshEvent.refreshs.sessionType = true := by
        rw [hstage]
        exact hconfirms
      simp only [Server.step, Server.confirmRefreshHandlingCompleted, clientSimRefreshInfoPresent,
        hstatus, hpresent, hr, hrequired, ne_eq, not_true, if_false]
    have hview := congrArg View.slot
      (Server.view_complete s request r hdone request.clientInfo.phoneId)
    rw [if_pos rfl] at hview
    rw [hstep]
    exact hview
  | failed t r ht hk hr hacts hdue hstage =>
    subst hk
    refine ⟨r, r.clear.enter .endedWithFailure s.now, hr, ?_, .inr (.inr rfl)⟩
    rw [acts_eq hr, Bool.and_eq_true, Bool.not_eq_true'] at hacts
    have hdrop : ((s.drop t.id).slot? t.slotId).getD default = r := by
      change (s.slot? t.slotId).getD default = r
      rw [hr, Option.getD_some]
    simp only [Server.step, ht, hdue, if_true, Server.runTask, hdrop, hacts, Bool.false_eq_true,
      if_false, hstage, Server.enterStage]
    exact (Server.slot?_setSlot ..).trans (if_pos rfl)

theorem now_awaitEnd (s : Server) (k : Int) (r : RefreshEventAndPending) :
    (s.awaitEnd k r).now = s.now := by
  unfold Server.awaitEnd
  split_ifs <;> rfl

theorem now_runTask (s : Server) (t : Task) : (s.runTask t).now = s.now := by
  unfold Server.runTask Server.enterStage
  dsimp only
  split_ifs
  · rfl
  · cases t.newStage with
    | starting => exact now_awaitEnd ..
    | waitingForVotes | endedWithSuccess | endedWithFailure => rfl
  · rfl

theorem now_le_step (s : Server) (e : Event) : s.now ≤ (s.step e).now := by
  cases e with
  | elapse ms => exact Nat.le_add_right _ _
  | setupRefreshConfig request =>
    apply Nat.le_of_eq
    unfold Server.step Server.setupRefreshConfig
    dsimp only
    split_ifs <;> rfl
  | simRefresh p =>
    apply Nat.le_of_eq
    unfold Server.step Server.handleSimRefreshInjector
    dsimp only
    split
    · rfl
    · split_ifs
      · rfl
      · unfold Server.inject
        dsimp only
        split_ifs
        · rw [now_awaitEnd]
          rfl
        · rfl
  | allowCardRefresh request =>
    apply Nat.le_of_eq
    unfold Server.step Server.allowCardRefresh Server.vote
    dsimp only
    repeat' split
    all_goals rfl
  | confirmRefreshHandlingCompleted request =>
    apply Nat.le_of_eq
    unfold Server.step Server.confirmRefreshHandlingCompleted Server.complete
    dsimp only
    repeat' split
    all_goals rfl
  | task id =>
    apply Nat.le_of_eq
    unfold Server.step
    dsimp only
    split
    · rfl
    · split_ifs
      · rw [now_runTask]
        rfl
      · rfl

/-- What a session schedules and what looks at a counter is one of its two time-outs. -/
theorem Timed.of_waits (h : Timed r t) (hwaits : t.waitsForClients = true) :
    t.checkPendingUserAllow = true ∨ r.stage = .starting ∧ t.checkPendingUserComplete = true := by
  unfold Timed at h
  split at h
  · exact h.elim
  · exact absurd (hwaits.symm.trans h.2.2) nofun
  · exact absurd (hwaits.symm.trans h.2) nofun
  · rcases h with ⟨-, hnot⟩ | ⟨hallow, -⟩ | ⟨hstage, hcomplete, -⟩
    · exact absurd (hwaits.symm.trans hnot) nofun
    · exact .inl hallow
    · exact .inr ⟨hstage, hcomplete⟩

/-- A notification wakes the time-outs of its own session only when they do nothing any more. -/
theorem acts_of_notifies (h : StageInv (s.view k)) (hn : Notifies s k e)
    (ht : t ∈ s.taskQ) (hk : t.slotId = k) (hwaits : t.waitsForClients = true)
    (hacts : s.acts t = true) {t' : Task} (hplain : t.plain = t'.plain) :
    (s.step e).acts t' = false := by
  obtain ⟨r, r', hr, hr', hcases⟩ := slot_of_notifies hn
  obtain ⟨-, -, hrunning, htimed⟩ :=
    timed_of_acts h (Server.mem_tasks.mpr ⟨t, ht, hk, rfl⟩) hk hr hacts
  rw [acts_eq (hk ▸ hr), Bool.and_eq_true, Bool.not_eq_true'] at hacts
  rw [← acts_of_plain_eq hplain, acts_eq (hk ▸ hr'), Task.cancelled]
  rcases hcases with ⟨hstage, hzero⟩ | ⟨hstage, hzero⟩ | hover
  · rcases htimed.of_waits hwaits with hallow | ⟨hstart, -⟩
    · rw [hallow, hzero]
      rfl
    · cases hstage.symm.trans hstart
  · rcases htimed.of_waits hwaits with hallow | ⟨-, hcomplete⟩
    · rw [Task.cancelled, hallow, hrunning.votes hstage] at hacts
      cases hacts.1
    · rw [hcomplete, hzero, beq_self_eq_true, Bool.and_true, Bool.or_true]
      rfl
  · rw [hover, Bool.and_false]

theorem timely_step (hs : s.Sound) (hstage : ∀ k, StageInv (s.view k)) (hp : Punctual s e)
    (h : Timely s) : Timely (s.step e) := by
  intro t' ht' hnotified hwaits hacts
  obtain ⟨t, ht, hplain, hreason⟩ := notified_of_step hs e t' ht' hnotified
  have hbefore := acts_of_step hs hp ht ht' hplain hacts
  have hwaits' : t.waitsForClients = true := (congrArg Task.waitsForClients hplain).trans hwaits
  have helapsed : t.start + t.delayMs ≤ s.now := by
    rcases hreason with hold | ⟨k, hn⟩
    · exact h t ht hold hwaits' hbefore
    · by_cases hk : t.slotId = k
      · have hquiet := acts_of_notifies (hstage k) hn ht hk hwaits' hbefore hplain
        cases hacts.symm.trans hquiet
      · exact undisturbed_of_notifies hp hn t ht hk hwaits' hbefore
  have hstart : t'.start = t.start := (congrArg Task.start hplain).symm
  have hdelay : t'.delayMs = t.delayMs := (congrArg Task.delayMs hplain).symm
  rw [hstart, hdelay]
  exact helapsed.trans (now_le_step s e)

/-- The step that fails the session has its reason. -/
theorem mayFail_of_moves (h : StageInv (s.view k)) (hp : Timely s) (hm : Moves s k e v)
    (hr : s.slot? k = some r) (hold : r.stage ≠ .endedWithFailure) (hnew : v.slot = some r')
    (hend : r'.stage = .endedWithFailure) : MayFail r s.now := by
  have hsame : v.slot = s.slot? k → MayFail r s.now := by
    intro hslot
    obtain rfl : r = r' := Option.some.inj (hr.symm.trans (hslot.symm.trans hnew))
    exact absurd hend hold
  cases hm with
  | stays | configured | passed => exact hsame rfl
  | injected p hslot hprogress =>
    obtain rfl : s.newRefreshEvt p k = r' := Option.some.inj hnew
    have hin := stage_newRefreshEvt s p k
    rw [RefreshEventAndPending.inProgress, hend] at hin
    cases hin
  | allowed request r₀ hstatus hr₀ hstage hk hc hallow =>
    obtain rfl : r₀.allow request.clientInfo = r' := Option.some.inj hnew
    cases hstage.symm.trans hend
  | denied request r₀ hstatus hr₀ hstage hk hc hallow =>
    obtain rfl : r₀.deny request.clientInfo = r' := Option.some.inj hnew
    cases hstage.symm.trans hend
  | confirmed request r₀ hstatus hr₀ hstage hk hc hdone =>
    obtain rfl : r₀.confirm request.clientInfo = r' := Option.some.inj hnew
    cases hstage.symm.trans hend
  | entered t r₀ ht hk hr₀ hacts hdue =>
    obtain rfl : r = r₀ := Option.some.inj (hr.symm.trans hr₀)
    obtain rfl : r.become t.newStage s.now = r' := Option.some.inj hnew
    rw [stage_become] at hend
    obtain ⟨hin, -, hrunning, htimed⟩ := timed_of_acts h (mem_view_of_task ht hk) hk hr hacts
    rw [Timed, hend] at htimed
    rcases htimed with ⟨hdenied, -⟩ | ⟨hcheck, htime⟩ | ⟨hstage, hcheck, htime⟩
    · exact .inl hdenied
    · have hwaiting : r.stage = .waitingForVotes := by
        refine (inProgress_iff.mp hin).resolve_right fun hstart => ?_
        rw [acts_eq (hk ▸ hr), Task.cancelled, hcheck, hrunning.votes hstart] at hacts
        cases hacts
      have hwaits : t.waitsForClients = true := by rw [Task.waitsForClients, hcheck, Bool.true_or]
      exact .inr (.inl ⟨hwaiting, htime ▸ hp.elapsed ht hwaits hacts hdue⟩)
    · have hwaits : t.waitsForClients = true := by rw [Task.waitsForClients, hcheck, Bool.or_true]
      exact .inr (.inr ⟨hstage, htime ▸ hp.elapsed ht hwaits hacts hdue⟩)

theorem runs_stageInv {e : Nat → Event} (hp : ∀ n, Punctual (runs e n) (e n)) (n : Nat) (k : Int) :
    StageInv ((runs e n).view k) := by
  induction n with
  | zero =>
    have hnone : ((runs e 0).view k).slot = none := rfl
    refine ⟨fun r hr => ?_, fun r hr => ?_, fun r hr => ?_, fun r hr => ?_⟩
    all_goals
      rw [hnone] at hr
      cases hr
  | succ n ih =>
    exact stageInv_of_moves (runs_sound e n) ih (hp n) (moves_step (runs_sound e n) (e n) k)

theorem runs_timely {e : Nat → Event} (hp : ∀ n, Punctual (runs e n) (e n)) (n : Nat) :
    Timely (runs e n) := by
  induction n with
  | zero => exact nofun
  | succ n ih => exact timely_step (runs_sound e n) (runs_stageInv hp n) (hp n) ih

/-- Every session reports its stages in order and fails only for a reason of its own. -/
theorem stages_in_order (e : Nat → Event) (h : ∀ n, Punctual (runs e n) (e n)) : Staged e := by
  refine ⟨fun n k r hr => (runs_stageInv h n k).inOrder hr, fun n k r hr henters => ?_⟩
  obtain ⟨r', hr', hend⟩ := Option.map_eq_some_iff.mp henters.1
  have hold : r.stage ≠ .endedWithFailure := by
    intro hstage
    refine henters.2 ?_
    rw [hr, Option.map_some, hstage]
  exact mayFail_of_moves (runs_stageInv h n k) (runs_timely h n) (moves_step (runs_sound e n) (e n) k) hr hold
    hr' hend

/-- The only voter does not vote. -/
def nobodyVotes : List Event :=
  [.setupRefreshConfig ⟨client 1, true, true, accepted⟩, .simRefresh ⟨.fcn, 0, "", .primary, ""⟩,
    .elapse 10000, .task 0]

theorem stages_in_order_unvoted : Staged (eventually nobodyVotes) ∧
    ((runs (eventually nobodyVotes) 4).slot? 1).map (·.course.reported) =
      some [.waitingForVotes, .endedWithFailure] :=
  ⟨stages_in_order _ (forall_eventually (fun _ _ => trivial) (by decide)), by decide⟩

instance (r : RefreshEventAndPending) (now : Nat) : Decidable (MayFail r now) := by
  unfold MayFail
  infer_instance

/-- While both slots wait for votes, the only voter of the second slot gives the last vote of its
session. -/
def otherVotes : List Event :=
  [.setupRefreshConfig ⟨⟨2, 2, ⟨.secondary, ""⟩⟩, true, true, accepted⟩,
    .simRefresh ⟨.fcn, 0, "", .secondary, ""⟩,
    .setupRefreshConfig ⟨client 1, true, true, accepted⟩,
    .simRefresh ⟨.fcn, 0, "", .primary, ""⟩,
    .allowCardRefresh ⟨⟨2, 2, ⟨.secondary, ""⟩⟩, true, accepted⟩, .task 1]

/-- The session of the first slot fails at once: the vote has woken its time-out. -/
theorem woken_by_other_slot : ¬ ∀ e : Nat → Event, Staged e := by
  intro h
  have henters : Enters 1 .endedWithFailure (runs (eventually otherVotes) 5)
      (runs (eventually otherVotes) 6) := by
    constructor <;> decide
  have hfail := (h (eventually otherVotes)).failure 5 1 _ rfl henters
  revert hfail
  decide

end Card

end SatComm
