import Mathlib.Data.List.Perm.Subperm
import SatComm.Card.Sessions
import SatComm.Runs.LeadsTo

/-!
# The votes and confirmations of a refresh

The counters of a session are set to the lengths of lists that have the clients of both slots, and
count every vote and every confirmation. They stand for the clients of the slot along runs in which
a session is injected while only its slot has voters, each client once, in which no client answers
twice in a session, and in which the tasks that a session has left behind do nothing in the next.
-/

namespace SatComm

namespace Card

open Runs

/-- The clients of a list of preferences. -/
def clients (prefs : List ClientSimRefreshPref) : List UInt32 := prefs.map (·.clientId)

/-- The step takes the slot to this stage. -/
def Enters (k : Int) (stage : CardRefreshStage) (s s' : Server) : Prop :=
  (s'.slot? k).map (·.stage) = some stage ∧ (s.slot? k).map (·.stage) ≠ some stage

/-- In the running session every client that is registered as a voter has voted to allow. -/
def AllVoted (k : Int) (session : Nat) (s : Server) : Prop :=
  ∃ r, s.slot? k = some r ∧ r.course.session = session ∧ r.inProgress = true ∧
    ∀ c ∈ clients (s.voters k), c ∈ clients r.course.allowed

def Started (k : Int) (session : Nat) (s : Server) : Prop :=
  ∃ r, s.slot? k = some r ∧ r.course.session = session ∧ .starting ∈ r.course.reported

/-- Every task runs sometime. -/
def Fair (e : Nat → Event) : Prop :=
  ∀ n, ∀ t ∈ (runs e n).taskQ, ∃ m, n ≤ m ∧ ∀ t' ∈ (runs e m).taskQ, t'.id ≠ t.id

/-- A refresh starts when, and only when, all voters of the slot have voted to allow it, and if it
needs confirmations, it ends with success only after all of them. -/
structure Voting (e : Nat → Event) : Prop where
  startsAfterVotes : ∀ n k r, Enters k .starting (runs e n) (runs e (n + 1)) →
    (runs e (n + 1)).slot? k = some r →
    ∀ c ∈ clients ((runs e (n + 1)).voters k), c ∈ clients r.course.allowed
  starts : Fair e → ∀ k session, LeadsTo (runs e) (AllVoted k session) (Started k session)
  endsAfterConfirmations : ∀ n k r, Enters k .endedWithSuccess (runs e n) (runs e (n + 1)) →
    (runs e (n + 1)).slot? k = some r → r.confirms = true →
    ∀ c ∈ clients ((runs e (n + 1)).registered k), c ∈ clients r.course.confirmed

/-- All voters are of this slot, no client is there twice, and both lists can be counted with 32
bits. -/
structure Countable (s : Server) (k : Int) : Prop where
  slot : ∀ c ∈ s.refreshVotingClients, c.phoneId = k
  nodup : (clients s.refreshVotingClients).Nodup
  voters : s.refreshVotingClients.length < 2 ^ 32
  registered : s.refreshRegisterClients.length < 2 ^ 32

instance (s : Server) (k : Int) : Decidable (Countable s k) :=
  decidable_of_iff ((∀ c ∈ s.refreshVotingClients, c.phoneId = k) ∧
      (clients s.refreshVotingClients).Nodup ∧ s.refreshVotingClients.length < 2 ^ 32 ∧
      s.refreshRegisterClients.length < 2 ^ 32)
    ⟨fun ⟨h, h', h'', h'''⟩ => ⟨h, h', h'', h'''⟩, fun ⟨h, h', h'', h'''⟩ => ⟨h, h', h'', h'''⟩⟩

/-- A task that would change the stage was scheduled in the running session. -/
def Current (s : Server) (id : Nat) : Prop :=
  ∀ t ∈ s.task? id, s.acts t = true → ∀ r ∈ s.slot? t.slotId, t.session = r.course.session

instance (s : Server) (id : Nat) : Decidable (Current s id) := by
  unfold Current
  infer_instance

/-- A session is injected when its voters can be counted, no client answers twice in a session, and
no task changes the stage of another session than its own. -/
def Orderly (s : Server) : Event → Prop
  | .simRefresh p => ∀ k ∈ getSlotBySessionType p.sessionId,
      (∀ r ∈ s.slot? k, r.inProgress = false) → Countable s k
  | .allowCardRefresh request => ∀ r ∈ s.slot? request.clientInfo.phoneId,
      request.api.status = .success → r.stage = .waitingForVotes →
        request.clientInfo ∉ r.course.allowed ++ r.course.denied
  | .confirmRefreshHandlingCompleted request => ∀ r ∈ s.slot? request.clientInfo.phoneId,
      request.api.status = .success → request.isCompleted = true → r.stage = .starting →
        request.clientInfo ∉ r.course.confirmed
  | .task id => Current s id
  | .setupRefreshConfig _ | .elapse _ => True

instance (s : Server) (e : Event) : Decidable (Orderly s e) :=
  match e with
  | .simRefresh _ | .allowCardRefresh _ | .confirmRefreshHandlingCompleted _ | .task _
  | .setupRefreshConfig _ | .elapse _ => by
    unfold Orderly
    infer_instance

/-! ## What the counters stand for -/

/-- Why the session has scheduled the task. -/
def Justified (v : View) (r : RefreshEventAndPending) (t : Task) : Prop :=
  match t.newStage with
  | .waitingForVotes => False
  | .starting => ∀ c ∈ v.voters, c ∈ r.course.allowed
  | .endedWithSuccess => r.stage = .starting ∧
      (r.confirms = true → ∀ c ∈ v.registered, c ∈ r.course.confirmed)
  | .endedWithFailure => t.checkPendingUserAllow = true ∨ r.stage = .starting ∨
      r.course.denied ≠ []

structure Counted (v : View) (r : RefreshEventAndPending) : Prop where
  answered : (r.course.allowed ++ r.course.denied).Nodup
  voter : ∀ c ∈ r.course.allowed ++ r.course.denied, c ∈ v.voters
  oneEach : (clients v.voters).Nodup
  votes : r.stage = .waitingForVotes →
    r.pendingAllow.toNat + r.course.allowed.length = v.voters.length
  confirmed : r.course.confirmed.Nodup
  registered : ∀ c ∈ r.course.confirmed, c ∈ v.registered
  confirmations : v.registered.length ≤ r.pendingComplete.toNat + r.course.confirmed.length
  started : r.stage = .starting →
    .starting ∈ r.course.reported ∧ ∀ c ∈ v.voters, c ∈ r.course.allowed
  tasks : ∀ t ∈ v.tasks, t.session = r.course.session → Justified v r t
  pending : r.stage = .waitingForVotes → r.pendingAllow = 0 → ∃ t ∈ v.tasks,
    t.session = r.course.session ∧ t.newStage = .starting ∧ t.checkPendingUserAllow = false ∧
      t.checkPendingUserComplete = false

/-- What holds of a slot. The tasks that earlier sessions have left are told from those of the
session by their number. -/
structure Inv (v : View) : Prop where
  session : ∀ r, v.slot = some r → ∀ t ∈ v.tasks, t.session ≤ r.course.session
  counted : ∀ r, v.slot = some r → r.inProgress = true → Counted v r

variable {s : Server} {k : Int} {r : RefreshEventAndPending} {v : View} {e : Event} {t : Task}
  {c : ClientSimRefreshPref} {session taskId : Nat}

theorem toNat_countDown (x : UInt32) : (if x > 0 then x - 1 else x).toNat = x.toNat - 1 := by
  split_ifs with hpos
  · have hle : (1 : UInt32) ≤ x := by
      rw [UInt32.le_iff_toNat_le]
      exact UInt32.lt_iff_toNat_lt.mp hpos
    rw [UInt32.toNat_sub_of_le _ _ hle]
    rfl
  · have hzero : x.toNat = 0 := by
      have hnot : ¬ (0 : UInt32).toNat < x.toNat := fun hlt => hpos (UInt32.lt_iff_toNat_lt.mpr hlt)
      exact Nat.eq_zero_of_not_pos hnot
    rw [hzero]

theorem toNat_allow (r : RefreshEventAndPending) (c : ClientSimRefreshPref) :
    (r.allow c).pendingAllow.toNat = r.pendingAllow.toNat - 1 :=
  toNat_countDown r.pendingAllow

theorem toNat_confirm (r : RefreshEventAndPending) (c : ClientSimRefreshPref) :
    (r.confirm c).pendingComplete.toNat = r.pendingComplete.toNat - 1 :=
  toNat_countDown r.pendingComplete

theorem eq_zero_iff_toNat {x : UInt32} : x = 0 ↔ x.toNat = 0 := by
  rw [← UInt32.toNat_inj]
  rfl

/-- Answers of so many entries of a list are answers of all of them. -/
theorem forall_mem_of_length_le {α : Type} {l l' : List α} (hnodup : l'.Nodup)
    (hsub : ∀ a ∈ l', a ∈ l) (hlen : l.length ≤ l'.length) : ∀ a ∈ l, a ∈ l' := by
  have hperm := (List.subperm_of_subset hnodup hsub).perm_of_length_le hlen
  exact fun a ha => hperm.mem_iff.mpr ha

/-- What the session has done so far stays a reason. -/
theorem Justified.mono {v' : View} {r' : RefreshEventAndPending} (h : Justified v r t)
    (hvoters : v'.voters = v.voters) (hregistered : v'.registered = v.registered)
    (hstage : r.stage = .starting → r'.stage = .starting) (hconfirms : r'.confirms = r.confirms)
    (hallowed : ∀ c ∈ r.course.allowed, c ∈ r'.course.allowed)
    (hdenied : r.course.denied ≠ [] → r'.course.denied ≠ [])
    (hconfirmed : ∀ c ∈ r.course.confirmed, c ∈ r'.course.confirmed) : Justified v' r' t := by
  unfold Justified at h ⊢
  split at h
  · exact h
  · exact fun c hc => hallowed c (h c (hvoters ▸ hc))
  · refine ⟨hstage h.1, fun hr c hc => hconfirmed c (h.2 (hconfirms ▸ hr) c (hregistered ▸ hc))⟩
  · exact h.imp_right (Or.imp hstage hdenied)

namespace Counted

theorem nodup_allow (h : Counted v r) (hnew : c ∉ r.course.allowed ++ r.course.denied) :
    ((r.course.allowed ++ [c]) ++ r.course.denied).Nodup := by
  rw [List.append_assoc, List.singleton_append, List.perm_middle.nodup_iff, List.nodup_cons]
  exact ⟨hnew, h.answered⟩

/-- One more vote leaves one voter less to wait for. -/
theorem allow (h : Counted (s.view k) r) (hstage : r.stage = .waitingForVotes)
    (hc : c ∈ s.voters k) (hnew : c ∉ r.course.allowed ++ r.course.denied) :
    Counted { s.view k with
      slot := some (r.allow c)
      tasks := (s.view k).tasks ++ if (r.allow c).pendingAllow = 0 then
        [s.newTask k .starting defaultDelay false false r.course.session] else [] }
      (r.allow c) := by
  have hanswered := h.nodup_allow hnew
  have hvoter : ∀ c' ∈ (r.course.allowed ++ [c]) ++ r.course.denied, c' ∈ s.voters k := by
    intro c' hc'
    simp only [List.mem_append, List.mem_singleton, or_assoc] at hc'
    rcases hc' with hc' | rfl | hc'
    · exact h.voter c' (List.mem_append_left _ hc')
    · exact hc
    · exact h.voter c' (List.mem_append_right _ hc')
  have hnodup : (r.course.allowed ++ [c]).Nodup := hanswered.of_append_left
  have hsub : ∀ c' ∈ r.course.allowed ++ [c], c' ∈ s.voters k :=
    fun c' hc' => hvoter c' (List.mem_append_left _ hc')
  have hlen := (List.subperm_of_subset hnodup hsub).length_le
  have hvotes : r.pendingAllow.toNat + r.course.allowed.length = (s.voters k).length :=
    h.votes hstage
  have hcount : (r.allow c).pendingAllow.toNat + (r.course.allowed ++ [c]).length =
      (s.voters k).length := by
    rw [toNat_allow]
    simp only [List.length_append, List.length_singleton] at hlen ⊢
    omega
  refine
    { answered := hanswered
      voter := hvoter
      oneEach := h.oneEach
      votes := fun _ => hcount
      confirmed := h.confirmed
      registered := h.registered
      confirmations := h.confirmations
      started := fun hstart => absurd (hstart.symm.trans hstage) nofun
      tasks := ?_
      pending := ?_ }
  · intro t ht hsession
    rcases List.mem_append.mp ht with ht | ht
    · exact (h.tasks t ht hsession).mono rfl rfl id rfl
        (fun _ => List.mem_append_left _) id fun _ => id
    · split_ifs at ht with hzero
      · obtain rfl := List.mem_singleton.mp ht
        refine forall_mem_of_length_le hnodup hsub ?_
        rw [eq_zero_iff_toNat.mp hzero, Nat.zero_add] at hcount
        exact hcount.ge
      · cases ht
  · intro _ hzero
    refine ⟨s.newTask k .starting defaultDelay false false r.course.session,
      List.mem_append_right _ ?_, rfl, rfl, rfl, rfl⟩
    rw [if_pos hzero]
    exact List.mem_singleton.mpr rfl

/-- A vote against the refresh. -/
theorem deny (h : Counted (s.view k) r) (hc : c ∈ s.voters k)
    (hnew : c ∉ r.course.allowed ++ r.course.denied) :
    Counted { s.view k with
      slot := some (r.deny c)
      tasks := (s.view k).tasks ++
        [s.newTask k .endedWithFailure 0 false false r.course.session] } (r.deny c) := by
  have hdenied : (r.course.allowed ++ (r.course.denied ++ [c])).Nodup := by
    rw [← List.append_assoc, ← List.concat_eq_append]
    exact h.answered.concat hnew
  refine
    { answered := hdenied
      voter := ?_
      oneEach := h.oneEach
      votes := h.votes
      confirmed := h.confirmed
      registered := h.registered
      confirmations := h.confirmations
      started := h.started
      tasks := ?_
      pending := ?_ }
  · intro c' hc'
    rcases List.mem_append.mp hc' with hc' | hc'
    · exact h.voter c' (List.mem_append_left _ hc')
    · rcases List.mem_append.mp hc' with hc' | hc'
      · exact h.voter c' (List.mem_append_right _ hc')
      · exact List.mem_singleton.mp hc' ▸ hc
  · intro t ht hsession
    have happend : r.course.denied ++ [c] ≠ [] := List.append_ne_nil_of_right_ne_nil _ nofun
    rcases List.mem_append.mp ht with ht | ht
    · exact (h.tasks t ht hsession).mono rfl rfl id rfl (fun _ => id) (fun _ => happend) fun _ => id
    · obtain rfl := List.mem_singleton.mp ht
      exact .inr (.inr happend)
  · intro hstage hzero
    obtain ⟨t, ht, hrest⟩ := h.pending hstage hzero
    exact ⟨t, List.mem_append_left _ ht, hrest⟩

theorem confirm (h : Counted (s.view k) r) (hstage : r.stage = .starting)
    (hc : c ∈ s.registered k) (hnew : c ∉ r.course.confirmed) :
    Counted { s.view k with
      slot := some (r.confirm c)
      tasks := (s.view k).tasks ++ if (r.confirm c).pendingComplete = 0 then
        [s.newTask k .endedWithSuccess defaultDelay false false r.course.session] else [] }
      (r.confirm c) := by
  have hnodup : (r.course.confirmed ++ [c]).Nodup := by
    rw [← List.concat_eq_append]
    exact h.confirmed.concat hnew
  have hsub : ∀ c' ∈ r.course.confirmed ++ [c], c' ∈ s.registered k :=
    List.forall_mem_append.mpr ⟨h.registered, List.forall_mem_singleton.mpr hc⟩
  have hcount : (s.registered k).length ≤
      (r.confirm c).pendingComplete.toNat + (r.course.confirmed ++ [c]).length := by
    have hle : (s.registered k).length ≤
      r.pendingComplete.toNat + r.course.confirmed.length := h.confirmations
    rw [toNat_confirm]
    simp only [List.length_append, List.length_singleton]
    omega
  refine
    { answered := h.answered
      voter := h.voter
      oneEach := h.oneEach
      votes := h.votes
      confirmed := hnodup
      registered := hsub
      confirmations := hcount
      started := h.started
      tasks := ?_
      pending := fun hwaiting => absurd (hwaiting.symm.trans hstage) nofun }
  intro t ht hsession
  rcases List.mem_append.mp ht with ht | ht
  · exact (h.tasks t ht hsession).mono rfl rfl id rfl (fun _ => id) id
      fun _ => List.mem_append_left _
  · split_ifs at ht with hzero
    · obtain rfl := List.mem_singleton.mp ht
      refine ⟨hstage, fun _ => forall_mem_of_length_le hnodup hsub ?_⟩
      rw [eq_zero_iff_toNat.mp hzero, Nat.zero_add] at hcount
      exact hcount
    · cases ht

theorem justified_endTask {v : View} (hstage : r.stage = .starting)
    (hnodup : r.course.confirmed.Nodup) (hsub : ∀ c ∈ r.course.confirmed, c ∈ v.registered)
    (hcount : v.registered.length ≤ r.pendingComplete.toNat + r.course.confirmed.length) :
    Justified v r (s.endTask k r) := by
  unfold Server.endTask
  split_ifs with hwait
  · exact .inr (.inl hstage)
  · refine ⟨hstage, fun hconfirms => forall_mem_of_length_le hnodup hsub ?_⟩
    have hzero : r.pendingComplete.toNat = 0 := by
      rw [hconfirms, Bool.and_true, decide_eq_true_eq] at hwait
      exact Nat.eq_zero_of_not_pos fun hpos => hwait (UInt32.lt_iff_toNat_lt.mpr hpos)
    rw [hzero, Nat.zero_add] at hcount
    exact hcount

/-- The refresh starts when all voters have voted to allow it. -/
theorem start (h : Counted (s.view k) r) (hall : ∀ c ∈ s.voters k, c ∈ r.course.allowed)
    (p : Task → Bool) (now : Nat) :
    Counted { s.view k with
      slot := some (r.enter .starting now)
      tasks := (s.view k).tasks.filter p ++ [s.endTask k (r.enter .starting now)] }
      (r.enter .starting now) := by
  refine
    { answered := h.answered
      voter := h.voter
      oneEach := h.oneEach
      votes := nofun
      confirmed := h.confirmed
      registered := h.registered
      confirmations := h.confirmations
      started := fun _ => ⟨List.mem_append_right _ (List.mem_singleton.mpr rfl), hall⟩
      tasks := ?_
      pending := nofun }
  intro t ht hsession
  rcases List.mem_append.mp ht with ht | ht
  · exact (h.tasks t (List.mem_of_mem_filter ht) hsession).mono rfl rfl (fun _ => rfl) rfl
      (fun _ => id) id fun _ => id
  · obtain rfl := List.mem_singleton.mp ht
    exact justified_endTask rfl h.confirmed h.registered h.confirmations

theorem pass (h : Counted v r) {id : Nat}
    (hpending : ∀ t ∈ v.tasks, t.id = id → t.session = r.course.session → t.newStage = .starting →
      t.checkPendingUserAllow = false → t.checkPendingUserComplete = false → False) :
    Counted { v with tasks := v.tasks.filter (·.id ≠ id) } r := by
  refine { h with
    tasks := fun t ht => h.tasks t (List.mem_of_mem_filter ht)
    pending := ?_ }
  intro hstage hzero
  obtain ⟨t, ht, hsession, hstart, hallow, hcomplete⟩ := h.pending hstage hzero
  refine ⟨t, List.mem_filter.mpr ⟨ht, decide_eq_true fun hid => ?_⟩, hsession, hstart, hallow,
    hcomplete⟩
  exact hpending t ht hid hsession hstart hallow hcomplete

/-- At its injection a session has the voters of the slot before it, and no answers. -/
theorem inject (h : Countable s k) (p : SimRefresh)
    (hold : ∀ t ∈ s.tasks k, t.session < (s.newRefreshEvt p k).course.session) :
    Counted { s.view k with
      slot := some (s.newRefreshEvt p k)
      tasks := (s.view k).tasks ++ [s.firstTask k (s.newRefreshEvt p k)] }
      (s.newRefreshEvt p k) := by
  have hvoters : s.voters k = s.refreshVotingClients :=
    List.filter_eq_self.mpr fun c hc => decide_eq_true (h.slot c hc)
  have hallow : (s.newRefreshEvt p k).pendingAllow.toNat = (s.voters k).length := by
    rw [hvoters]
    exact UInt32.toNat_ofNat_of_lt' h.voters
  have hcomplete : (s.newRefreshEvt p k).pendingComplete.toNat =
      s.refreshRegisterClients.length := UInt32.toNat_ofNat_of_lt' h.registered
  have hregistered : (s.registered k).length ≤ (s.newRefreshEvt p k).pendingComplete.toNat + 0 := by
    rw [hcomplete]
    exact List.length_filter_le _ _
  have hstage : (s.newRefreshEvt p k).stage =
      if (s.newRefreshEvt p k).pendingAllow = 0 then .starting else .waitingForVotes := rfl
  refine
    { answered := List.nodup_nil
      voter := nofun
      oneEach := h.nodup.sublist (List.filter_sublist.map _)
      votes := fun _ => hallow
      confirmed := List.nodup_nil
      registered := nofun
      confirmations := hregistered
      started := ?_
      tasks := ?_
      pending := ?_ }
  · intro hstart
    refine ⟨List.mem_singleton.mpr hstart.symm, ?_⟩
    split_ifs at hstage with hzero
    · have hnone : s.voters k = [] := by
        rw [eq_zero_iff_toNat.mp hzero] at hallow
        exact List.eq_nil_of_length_eq_zero hallow.symm
      intro c hc
      exact absurd (hnone ▸ hc : c ∈ []) List.not_mem_nil
    · exact absurd (hstart.symm.trans hstage) nofun
  · intro t ht hsession
    rcases List.mem_append.mp ht with ht | ht
    · exact absurd hsession (hold t ht).ne
    · obtain rfl := List.mem_singleton.mp ht
      unfold Server.firstTask
      split_ifs with hstart
      · exact justified_endTask hstart List.nodup_nil nofun hregistered
      · exact .inl rfl
  · intro hwaiting hzero
    rw [if_pos hzero, hwaiting] at hstage
    cases hstage

end Counted

/-! ## What a step keeps -/

/-- A task that changes the stage has its reason in the session that runs. -/
theorem justified_of_acts (h : Inv (s.view k)) (ho : Orderly s (.task t.id))
    (ht : s.task? t.id = some t) (hk : t.slotId = k) (hr : s.slot? k = some r)
    (hacts : s.acts t = true) : Counted (s.view k) r ∧ Justified (s.view k) r t.plain := by
  have hin : r.inProgress = true := by
    rw [acts_eq (hk ▸ hr), Bool.and_eq_true] at hacts
    exact hacts.2
  have hcounted := h.counted r hr hin
  have hsession : t.session = r.course.session := ho t ht hacts r (hk ▸ hr)
  exact ⟨hcounted, hcounted.tasks t.plain (mem_view_of_task ht hk) hsession⟩

theorem inv_of_moves (hs : s.Sound) (h : Inv (s.view k)) (ho : Orderly s e) (hm : Moves s k e v) :
    Inv v := by
  refine ⟨session_of_moves hs h.session hm, ?_⟩
  cases hm with
  | stays => exact h.counted
  | configured request voters registered hprogress =>
    intro r hr hin
    exact absurd hin (by simp [hprogress r hr])
  | injected p hslot hprogress =>
    intro r' hr' hin
    obtain rfl : s.newRefreshEvt p k = r' := Option.some.inj hr'
    exact Counted.inject (ho k hslot hprogress) p (session_lt_newRefreshEvt hs h.session p)
  | allowed request r hstatus hr hstage hk hc hallow =>
    intro r' hr' hin
    obtain rfl : r.allow request.clientInfo = r' := Option.some.inj hr'
    refine (h.counted r hr (inProgress_iff.mpr (.inl hstage))).allow hstage hc ?_
    exact ho r (hk ▸ hr) hstatus hstage
  | denied request r hstatus hr hstage hk hc hallow =>
    intro r' hr' hin
    obtain rfl : r.deny request.clientInfo = r' := Option.some.inj hr'
    refine (h.counted r hr (inProgress_iff.mpr (.inl hstage))).deny hc ?_
    exact ho r (hk ▸ hr) hstatus hstage
  | confirmed request r hstatus hr hstage hk hc hdone =>
    intro r' hr' hin
    obtain rfl : r.confirm request.clientInfo = r' := Option.some.inj hr'
    refine (h.counted r hr (inProgress_iff.mpr (.inr hstage))).confirm hstage hc ?_
    exact ho r (hk ▸ hr) hstatus hdone hstage
  | passed t ht hk hacts =>
    intro r hr hin
    refine (h.counted r hr hin).pass fun t' ht' hid _ _ hallow hcomplete => ?_
    obtain rfl := eq_of_mem_view hs ht ht' hid
    subst hk
    rw [acts_eq hr, hin, Bool.and_true] at hacts
    simp [Task.cancelled, show t.checkPendingUserAllow = false from hallow,
      show t.checkPendingUserComplete = false from hcomplete] at hacts
  | entered t r ht hk hr hacts hdue =>
    intro r' hr' hin
    obtain rfl : r.become t.newStage s.now = r' := Option.some.inj hr'
    obtain ⟨hcounted, hjust⟩ := justified_of_acts h ho ht hk hr hacts
    unfold Justified at hjust
    split at hjust
    · exact hjust.elim
    · rename_i hstart
      have hnew : t.newStage = .starting := hstart
      have hbecome : r.become t.newStage s.now = r.enter .starting s.now := by
        rw [hnew]
        rfl
      rw [if_pos hnew, hbecome]
      exact hcounted.start hjust _ _
    all_goals
      rename_i hend
      rw [inProgress_iff, stage_become, show t.newStage = _ from hend] at hin
      cases hin <;> contradiction

theorem runs_inv {e : Nat → Event} (ho : ∀ n, Orderly (runs e n) (e n)) (n : Nat) (k : Int) :
    Inv ((runs e n).view k) := by
  induction n with
  | zero =>
    have hnone : ((runs e 0).view k).slot = none := rfl
    refine ⟨fun r hr => ?_, fun r hr => ?_⟩
    · rw [hnone] at hr
      cases hr
    · rw [hnone] at hr
      cases hr
  | succ n ih => exact inv_of_moves (runs_sound e n) ih (ho n) (moves_step (runs_sound e n) (e n) k)

/-! ## When all have voted -/

namespace Counted

theorem all_of_clients (h : Counted v r)
    (hall : ∀ c ∈ clients v.voters, c ∈ clients r.course.allowed) :
    ∀ c ∈ v.voters, c ∈ r.course.allowed := by
  intro c hc
  obtain ⟨a, ha, hid⟩ := List.mem_map.mp (hall c.clientId (List.mem_map_of_mem hc))
  have hvoter : a ∈ v.voters := h.voter a (List.mem_append_left _ ha)
  rw [← List.inj_on_of_nodup_map h.oneEach hvoter hc hid]
  exact ha

theorem pendingAllow_eq_zero (h : Counted v r) (hstage : r.stage = .waitingForVotes)
    (hall : ∀ c ∈ v.voters, c ∈ r.course.allowed) : r.pendingAllow = 0 := by
  have hnodup : v.voters.Nodup := h.oneEach.of_map
  have hle := (List.subperm_of_subset hnodup hall).length_le
  have hvotes := h.votes hstage
  exact eq_zero_iff_toNat.mpr (by omega)

theorem denied_eq_nil (h : Counted v r) (hall : ∀ c ∈ v.voters, c ∈ r.course.allowed) :
    r.course.denied = [] := by
  rw [List.eq_nil_iff_forall_not_mem]
  intro c hc
  have hallowed := hall c (h.voter c (List.mem_append_right _ hc))
  exact List.disjoint_of_nodup_append h.answered hallowed hc

end Counted

/-- All have voted, and the task that starts the refresh has not run yet. -/
def Waits (session taskId : Nat) (v : View) : Prop :=
  ∃ r, v.slot = some r ∧ r.course.session = session ∧ r.stage = .waitingForVotes ∧
    (∀ c ∈ v.voters, c ∈ r.course.allowed) ∧
    ∃ t ∈ v.tasks, t.id = taskId ∧ t.session = session ∧ t.newStage = .starting ∧
      t.checkPendingUserAllow = false ∧ t.checkPendingUserComplete = false

theorem waits_or_started (hs : s.Sound) (h : Inv (s.view k)) (ho : Orderly s e)
    (hm : Moves s k e v) (hw : Waits session taskId (s.view k)) :
    Waits session taskId v ∨
      ∃ r, v.slot = some r ∧ r.course.session = session ∧ .starting ∈ r.course.reported := by
  obtain ⟨r, hr, hsession, hwaiting, hall, t, ht, hid, hrest⟩ := hw
  have hin : r.inProgress = true := inProgress_iff.mpr (.inl hwaiting)
  cases hm with
  | stays => exact .inl ⟨r, hr, hsession, hwaiting, hall, t, ht, hid, hrest⟩
  | configured request voters registered hprogress =>
    rw [hprogress r hr] at hin
    cases hin
  | injected p hslot hprogress =>
    rw [hprogress r hr] at hin
    cases hin
  | allowed request r' hstatus hr' hstage hk hc hallow =>
    obtain rfl : r = r' := Option.some.inj (hr.symm.trans hr')
    exact .inl ⟨_, rfl, hsession, hwaiting, fun c hc => List.mem_append_left _ (hall c hc), t,
      List.mem_append_left _ ht, hid, hrest⟩
  | denied request r' hstatus hr' hstage hk hc hallow =>
    obtain rfl : r = r' := Option.some.inj (hr.symm.trans hr')
    exact .inl ⟨_, rfl, hsession, hwaiting, hall, t, List.mem_append_left _ ht, hid, hrest⟩
  | confirmed request r' hstatus hr' hstage hk hc hdone =>
    obtain rfl : r = r' := Option.some.inj (hr.symm.trans hr')
    exact absurd (hwaiting.symm.trans hstage) nofun
  | passed t' ht' hk hacts =>
    refine .inl ⟨r, hr, hsession, hwaiting, hall, t, List.mem_filter.mpr ⟨ht, ?_⟩, hid, hrest⟩
    refine decide_eq_true fun heq => ?_
    obtain rfl := eq_of_mem_view hs ht' ht heq
    subst hk
    obtain ⟨-, -, hallow, hcomplete⟩ := hrest
    rw [acts_eq hr, hin, Bool.and_true] at hacts
    simp [Task.cancelled, show t'.checkPendingUserAllow = false from hallow,
      show t'.checkPendingUserComplete = false from hcomplete] at hacts
  | entered t' r' ht' hk hr' hacts hdue =>
    obtain rfl : r = r' := Option.some.inj (hr.symm.trans hr')
    obtain ⟨hcounted, hjust⟩ := justified_of_acts h ho ht' hk hr hacts
    unfold Justified at hjust
    split at hjust
    · exact hjust.elim
    · rename_i hstart
      have hnew : t'.newStage = .starting := hstart
      refine .inr ⟨_, rfl, (course_become ..).trans hsession, ?_⟩
      rw [hnew]
      exact List.mem_append_right _ (List.mem_singleton.mpr rfl)
    · exact absurd (hwaiting.symm.trans hjust.1) nofun
    · rcases hjust with hallow | hstart | hdenied
      · subst hk
        have hzero := hcounted.pendingAllow_eq_zero hwaiting hall
        rw [acts_eq hr, Task.cancelled, show t'.checkPendingUserAllow = true from hallow, hzero]
          at hacts
        simp at hacts
      · exact absurd (hwaiting.symm.trans hstart) nofun
      · exact absurd (hcounted.denied_eq_nil hall) hdenied

/-- Once all have voted, the refresh starts. -/
theorem started_of_allVoted {e : Nat → Event} (ho : ∀ n, Orderly (runs e n) (e n)) (hfair : Fair e)
    (k : Int) (session : Nat) : LeadsTo (runs e) (AllVoted k session) (Started k session) := by
  intro n hn
  obtain ⟨r, hr, hsession, hin, hclients⟩ := hn
  have hcounted := (runs_inv ho n k).counted r hr hin
  have hall := hcounted.all_of_clients hclients
  rcases inProgress_iff.mp hin with hwaiting | hstart
  · obtain ⟨t, ht, htsession, hrest⟩ :=
      hcounted.pending hwaiting (hcounted.pendingAllow_eq_zero hwaiting hall)
    have hexit : LeadsTo (runs e) (fun s => Waits session t.id (s.view k)) (Started k session) := by
      refine .exit (fun m hm => ?_) fun m => ?_
      · exact waits_or_started (runs_sound e m) (runs_inv ho m k) (ho m)
          (moves_step (runs_sound e m) (e m) k) hm
      · by_cases hm : Waits session t.id ((runs e m).view k)
        · obtain ⟨_, _, _, _, _, t', ht', hid, _⟩ := hm
          obtain ⟨t'', hmem, hslot, rfl⟩ := Server.mem_tasks.mp ht'
          obtain ⟨m', hle, hgone⟩ := hfair m t'' hmem
          refine ⟨m', hle, fun hw => ?_⟩
          obtain ⟨_, _, _, _, _, u, hu, huid, _⟩ := hw
          obtain ⟨u', humem, -, rfl⟩ := Server.mem_tasks.mp hu
          exact hgone u' humem (huid.trans hid.symm)
        · exact ⟨m, Nat.le_refl m, hm⟩
    exact hexit n ⟨r, hr, hsession, hwaiting, hall, t, ht, rfl, htsession.trans hsession, hrest⟩
  · exact ⟨n, Nat.le_refl n, r, hr, hsession, (hcounted.started hstart).1⟩

/-- A session ends with success only from a task that has its reason. -/
theorem confirmed_of_moves (h : Inv (s.view k)) (ho : Orderly s e)
    (hm : Moves s k e v) (hnew : v.slot = some r) (hend : r.stage = .endedWithSuccess)
    (hold : (s.slot? k).map (·.stage) ≠ some .endedWithSuccess) (hconfirms : r.confirms = true) :
    ∀ c ∈ v.registered, c ∈ r.course.confirmed := by
  cases hm with
  | stays => exact absurd (by rw [show s.slot? k = some r from hnew, ← hend]; rfl) hold
  | configured request voters registered hprogress =>
    exact absurd (by rw [show s.slot? k = some r from hnew, ← hend]; rfl) hold
  | injected p hslot hprogress =>
    obtain rfl : s.newRefreshEvt p k = r := Option.some.inj hnew
    have hin := stage_newRefreshEvt s p k
    rw [RefreshEventAndPending.inProgress, hend] at hin
    cases hin
  | allowed request r' hstatus hr' hstage hk hc hallow =>
    obtain rfl : r'.allow request.clientInfo = r := Option.some.inj hnew
    cases hstage.symm.trans hend
  | denied request r' hstatus hr' hstage hk hc hallow =>
    obtain rfl : r'.deny request.clientInfo = r := Option.some.inj hnew
    cases hstage.symm.trans hend
  | confirmed request r' hstatus hr' hstage hk hc hdone =>
    obtain rfl : r'.confirm request.clientInfo = r := Option.some.inj hnew
    cases hstage.symm.trans hend
  | passed t ht hk hacts =>
    exact absurd (by rw [show s.slot? k = some r from hnew, ← hend]; rfl) hold
  | entered t r' ht hk hr' hacts hdue =>
    obtain rfl : r'.become t.newStage s.now = r := Option.some.inj hnew
    rw [stage_become] at hend
    obtain ⟨-, hjust⟩ := justified_of_acts h ho ht hk hr' hacts
    have hbecome : r'.become t.newStage s.now = r'.enter .endedWithSuccess s.now := by
      rw [hend]
      rfl
    rw [hbecome] at hconfirms ⊢
    rw [Justified, show t.plain.newStage = .endedWithSuccess from hend] at hjust
    exact hjust.2 hconfirms

/-- The votes and the confirmations count for what they are. -/
theorem votes_counted (e : Nat → Event) (h : ∀ n, Orderly (runs e n) (e n)) : Voting e := by
  have hclients : ∀ {l l' : List ClientSimRefreshPref}, (∀ c ∈ l, c ∈ l') →
      ∀ c ∈ clients l, c ∈ clients l' := by
    intro l l' hsub c hc
    obtain ⟨x, hx, rfl⟩ := List.mem_map.mp hc
    exact List.mem_map_of_mem (hsub x hx)
  refine ⟨fun n k r henters hr => ?_, fun hfair => started_of_allVoted h hfair,
    fun n k r henters hr hconfirms => ?_⟩
  · have hstart : r.stage = .starting := by
      have hmap := henters.1
      rw [hr] at hmap
      exact Option.some.inj hmap
    have hcounted := (runs_inv h (n + 1) k).counted r hr (inProgress_iff.mpr (.inr hstart))
    exact hclients (hcounted.started hstart).2
  · have hend : r.stage = .endedWithSuccess := by
      have hmap := henters.1
      rw [hr] at hmap
      exact Option.some.inj hmap
    exact hclients (confirmed_of_moves (runs_inv h n k) (h n)
      (moves_step (runs_sound e n) (e n) k) hr hend henters.2 hconfirms)

/-- Two clients vote and confirm, each once. -/
def votesOnce : List Event :=
  [.setupRefreshConfig ⟨client 1, true, true, accepted⟩,
    .setupRefreshConfig ⟨client 2, true, true, accepted⟩,
    .simRefresh ⟨.fcn, 0, "", .primary, ""⟩,
    .allowCardRefresh ⟨client 1, true, accepted⟩, .allowCardRefresh ⟨client 2, true, accepted⟩,
    .elapse 100, .task 1, .task 0,
    .confirmRefreshHandlingCompleted ⟨client 1, true, accepted⟩,
    .confirmRefreshHandlingCompleted ⟨client 2, true, accepted⟩, .elapse 100, .task 3, .task 2]

theorem votes_counted_once : Voting (eventually votesOnce) ∧
    ((runs (eventually votesOnce) 13).slot? 1).map (·.course.reported) =
      some [.waitingForVotes, .starting, .endedWithSuccess] :=
  ⟨votes_counted _ (forall_eventually (fun _ _ => trivial) (by decide)), by decide⟩

/-- Two voters, one of which votes twice. -/
def votesTwice : List Event :=
  [.setupRefreshConfig ⟨client 1, true, true, accepted⟩,
    .setupRefreshConfig ⟨client 2, true, true, accepted⟩,
    .simRefresh ⟨.fcn, 0, "", .primary, ""⟩,
    .allowCardRefresh ⟨client 1, true, accepted⟩, .allowCardRefresh ⟨client 1, true, accepted⟩,
    .elapse 100, .task 1]

theorem vote_counted_twice : ¬ ∀ e : Nat → Event, Voting e := by
  intro h
  have hall := (h (eventually votesTwice)).startsAfterVotes 6 1
  have henters : Enters 1 .starting (runs (eventually votesTwice) 6)
      (runs (eventually votesTwice) 7) := by
    constructor <;> decide
  have h2 := hall _ henters rfl 2 (by decide)
  revert h2
  decide

end Card

end SatComm
