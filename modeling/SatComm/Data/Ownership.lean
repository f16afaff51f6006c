import SatComm.Data.Connection

/-!
# The owners of a data call

A client that starts a data call becomes an owner in the request handler if the call is cached
already, and in the start task if that task creates the call. A task that finds the call cached by
then drops its client, and a last owner that stops with another family than the call's leaves it
in the cache without an owner. Where neither happens, every client that has started a call and not
stopped it is an owner once its task has run.
-/

namespace SatComm

namespace Data

open Runs

namespace DataConnectionServer

/-- The client owns the cached call of the slot and the profile. -/
def Owns (s : DataConnectionServer) (clientId slotId profileId : Int) : Prop :=
  ∃ call, s.dataCall? slotId profileId = some call ∧ clientId ∈ call.ownersId

/-- A start task of the client is pending. -/
def Awaits (s : DataConnectionServer) (clientId slotId profileId : Int) : Prop :=
  ∃ task ∈ s.startTasks,
    task.clientId = clientId ∧ task.slotId = slotId ∧ task.profileId = profileId

variable {s s' : DataConnectionServer} {slotId profileId : Int} {call : DataCallParams}

theorem owns_cache (h : ValidSlot slotId) (clientId slotId' profileId' : Int) :
    (s.cache slotId profileId call).Owns clientId slotId' profileId' ↔
      if slotId' = slotId ∧ profileId' = profileId then clientId ∈ call.ownersId
      else s.Owns clientId slotId' profileId' := by
  unfold Owns
  rw [dataCall?_cache h]
  split_ifs
  · simp
  · rfl

theorem owns_uncache (h : ValidSlot slotId) (clientId slotId' profileId' : Int) :
    (s.uncache slotId profileId).Owns clientId slotId' profileId' ↔
      ¬ (slotId' = slotId ∧ profileId' = profileId) ∧ s.Owns clientId slotId' profileId' := by
  unfold Owns
  rw [dataCall?_uncache h]
  split_ifs with hkey
  · simp [hkey]
  · simp [hkey]

/-- An owner of the old call that is an owner of the new one as well stays an owner. -/
theorem Owns.cache (h : ValidSlot slotId) {clientId slotId' profileId' : Int}
    (howns : s.Owns clientId slotId' profileId')
    (hcall : slotId' = slotId → profileId' = profileId → clientId ∈ call.ownersId) :
    (s.cache slotId profileId call).Owns clientId slotId' profileId' := by
  rw [owns_cache h]
  split_ifs with hkey
  · exact hcall hkey.1 hkey.2
  · exact howns

/-- Every cached call has an owner. -/
def HasOwners (s : DataConnectionServer) : Prop :=
  ∀ slotId profileId call, s.dataCall? slotId profileId = some call → call.ownersId.Nonempty

theorem HasOwners.cache (h : ValidSlot slotId) (hs : s.HasOwners) (hcall : call.ownersId.Nonempty) :
    (s.cache slotId profileId call).HasOwners := by
  intro slotId' profileId' call' hcall'
  rw [dataCall?_cache h] at hcall'
  split_ifs at hcall'
  · exact Option.some.inj hcall' ▸ hcall
  · exact hs _ _ _ hcall'

theorem HasOwners.uncache (h : ValidSlot slotId) (hs : s.HasOwners) :
    (s.uncache slotId profileId).HasOwners := by
  intro slotId' profileId' call' hcall'
  rw [dataCall?_uncache h] at hcall'
  split_ifs at hcall'
  exact hs _ _ _ hcall'

theorem HasOwners.cleanUpService (hs : s.HasOwners) (clientId : Int) :
    (s.cleanUpService clientId).HasOwners := by
  intro slotId profileId call' hcall'
  rw [dataCall?_cleanUpService, Option.bind_eq_some_iff] at hcall'
  obtain ⟨call, hcall, hleave⟩ := hcall'
  split_ifs at hleave with hends
  obtain rfl := Option.some.inj hleave
  have howners := hs _ _ _ hcall
  by_cases hmem : clientId ∈ call.ownersId
  · have hne : ¬ (call.leave clientId).ownersId = ∅ := fun hempty => hends (.inr ⟨hmem, hempty⟩)
    exact Finset.nonempty_iff_ne_empty.mpr hne
  · simpa [DataCallParams.leave, Finset.erase_eq_of_notMem hmem] using howners

end DataConnectionServer

open DataConnectionServer

/-- The server together with the clients, with slot and profile, whose latest request was a start
that was answered with success and that have not exited. -/
structure Clients where
  server : DataConnectionServer
  started : Finset (Int × Int × Int)
deriving DecidableEq

namespace Clients

def new : Clients where
  server := .new
  started := ∅

def key (request : DataCallInputParams) : Int × Int × Int :=
  (request.clientId, request.slotId, request.profileId)

/-- Who waits for a data call after a request. -/
def record (w : Clients) : Event → Finset (Int × Int × Int)
  | .startDatacall request data allowed =>
    if ∃ d ∈ data, (w.server.startResult request d allowed).Succeeds then
      insert (key request) w.started
    else w.started.erase (key request)
  | .stopDatacall request _ => w.started.erase (key request)
  | .cleanUpService clientId => w.started.filter fun k => k.1 ≠ clientId
  | .startTask .. | .stopTask _ | .stopActiveDataCalls _ => w.started

def step (w : Clients) (e : Event) : Option Clients :=
  (w.server.step e).map fun server => { server, started := w.record e }

/-- A start names one of the two slots; a start task that finds the call cached runs for an owner
or for a client that no longer wants the call; the last owner stops with the family of the call. -/
def KeepsOwners (w : Clients) : Event → Prop
  | .startDatacall request _ _ => ValidSlot request.slotId
  | .stopDatacall request data => w.server.EndsWithFamily request data
  | .startTask n _ _ _ => ∀ task ∈ w.server.startTasks[n]?,
    ∀ call ∈ w.server.dataCall? task.slotId task.profileId,
      task.clientId ∈ call.ownersId ∨ (task.clientId, task.slotId, task.profileId) ∉ w.started
  | .cleanUpService _ | .stopTask _ | .stopActiveDataCalls _ => True

instance (w : Clients) : DecidablePred w.KeepsOwners
  | .startDatacall .. => inferInstanceAs (Decidable (ValidSlot _))
  | .stopDatacall request data => inferInstanceAs (Decidable (w.server.EndsWithFamily request data))
  | .startTask .. => inferInstanceAs (Decidable (∀ task ∈ _, ∀ call ∈ _, _ ∨ _))
  | .cleanUpService _ | .stopTask _ | .stopActiveDataCalls _ => inferInstanceAs (Decidable True)

/-- With no task pending every cached call has an owner, and all that started a call own it. -/
def Settled (w : Clients) : Prop :=
  w.server.startTasks = [] → w.server.stopTasks = [] →
    w.server.HasOwners ∧
    ∀ clientId slotId profileId, (clientId, slotId, profileId) ∈ w.started →
      w.server.Owns clientId slotId profileId

/-- The invariant: who has started a call owns it or has a task pending. -/
structure Owned (w : Clients) : Prop where
  validSlot : ∀ task ∈ w.server.startTasks, ValidSlot task.slotId
  owners : w.server.HasOwners
  started : ∀ clientId slotId profileId, (clientId, slotId, profileId) ∈ w.started →
    w.server.Owns clientId slotId profileId ∨ w.server.Awaits clientId slotId profileId

theorem Owned.settled {w : Clients} (h : w.Owned) : w.Settled := by
  intro hstart _
  refine ⟨h.owners, fun clientId slotId profileId hmem => ?_⟩
  rcases h.started clientId slotId profileId hmem with howns | ⟨task, htask, _⟩
  · exact howns
  · rw [hstart] at htask
    cases htask

theorem owned_new : new.Owned := by
  constructor
  · intro task htask
    cases htask
  · intro slotId profileId call h
    simp [new, DataConnectionServer.new, dataCall?] at h
  · intro clientId slotId profileId h
    simp [new] at h

section Requests

variable {s : DataConnectionServer} {started : Finset (Int × Int × Int)}
  {request : DataCallInputParams}

theorem Owned.insert (h : Owned ⟨s, started⟩)
    (howns : s.Owns request.clientId request.slotId request.profileId) :
    Owned ⟨s, insert (key request) started⟩ := by
  refine ⟨h.validSlot, h.owners, fun clientId slotId profileId hmem => ?_⟩
  rcases Finset.mem_insert.mp hmem with heq | hmem
  · obtain ⟨rfl, rfl, rfl⟩ := by simpa [key] using heq
    exact .inl howns
  · exact h.started clientId slotId profileId hmem

theorem Owned.erase (h : Owned ⟨s, started⟩) : Owned ⟨s, started.erase (key request)⟩ :=
  ⟨h.validSlot, h.owners, fun clientId slotId profileId hmem =>
    h.started clientId slotId profileId (Finset.mem_of_mem_erase hmem)⟩

theorem Owned.addStartTask (h : Owned ⟨s, started⟩) (hslot : ValidSlot request.slotId) :
    Owned ⟨s.addStartTask request, Insert.insert (key request) started⟩ := by
  refine ⟨?_, h.owners, fun clientId slotId profileId hmem => ?_⟩
  · intro task htask
    rcases List.mem_append.mp htask with htask | htask
    · exact h.validSlot task htask
    · rw [List.mem_singleton] at htask
      exact htask ▸ hslot
  · rcases Finset.mem_insert.mp hmem with heq | hmem
    · obtain ⟨rfl, rfl, rfl⟩ := by simpa [key] using heq
      refine .inr ⟨_, List.mem_append_right _ (List.mem_singleton_self _), ?_⟩
      exact ⟨rfl, rfl, rfl⟩
    · rcases h.started clientId slotId profileId hmem with howns | ⟨task, htask, hkey⟩
      · exact .inl howns
      · exact .inr ⟨task, List.mem_append_left _ htask, hkey⟩

/-- Writing a call whose owners include the old ones. -/
theorem Owned.cache {slotId profileId : Int} {call : DataCallParams} (h : Owned ⟨s, started⟩)
    (hslot : ValidSlot slotId) (hne : call.ownersId.Nonempty)
    (howners : ∀ clientId, (clientId, slotId, profileId) ∈ started →
      s.Owns clientId slotId profileId → clientId ∈ call.ownersId) :
    Owned ⟨s.cache slotId profileId call, started⟩ := by
  have htasks := (sameTasks_cache s slotId profileId call).startTasks
  refine ⟨?_, h.owners.cache hslot hne, fun clientId slotId' profileId' hmem => ?_⟩
  · intro task htask
    exact h.validSlot task (htasks ▸ htask)
  · rcases h.started clientId slotId' profileId' hmem with howns | ⟨task, htask, hkey⟩
    · refine .inl (howns.cache hslot ?_)
      rintro rfl rfl
      exact howners clientId hmem howns
    · exact .inr ⟨task, htasks ▸ htask, hkey⟩

theorem Owned.startDatacall (h : Owned ⟨s, started⟩) (hslot : ValidSlot request.slotId)
    {data : ApiResult} {allowed : Bool} (hs : (s.startResult request data allowed).Succeeds) :
    Owned ⟨s.startDatacall request data allowed, Insert.insert (key request) started⟩ := by
  rw [DataConnectionServer.startDatacall, if_pos hs]
  cases hcall : s.dataCall? request.slotId request.profileId with
  | none => exact h.addStartTask hslot
  | some call =>
    have hjoin : Owned ⟨s.cache request.slotId request.profileId (call.join
        (convertIpFamilyEnumToString request.ipFamilyType) request.clientId), started⟩ := by
      refine h.cache hslot ⟨request.clientId, Finset.mem_insert_self _ _⟩ ?_
      rintro clientId - ⟨call', hcall', howner⟩
      obtain rfl := Option.some.inj (hcall.symm.trans hcall')
      exact Finset.mem_insert_of_mem howner
    dsimp only
    split_ifs
    · exact hjoin.addStartTask hslot
    · apply hjoin.insert
      rw [owns_cache hslot]
      simp [DataCallParams.join]

theorem Owned.stopDatacall (h : Owned ⟨s, started⟩) {data : ApiResult}
    (hfamily : data.Succeeds → ∀ call ∈ s.dataCall? request.slotId request.profileId,
      (call.leave request.clientId).ownersId = ∅ →
        convertIpFamilyEnumToString request.ipFamilyType = call.ipFamilyType) :
    Owned ⟨s.stopDatacall request data, started.erase (key request)⟩ := by
  rw [DataConnectionServer.stopDatacall]
  by_cases hs : data.Succeeds
  · rw [if_pos hs]
    cases hcall : s.dataCall? request.slotId request.profileId with
    | none => exact h.erase
    | some call =>
      have hslot := validSlot_of_dataCall? hcall
      -- who still wants the call is not the client that stops it
      have hother : ∀ clientId,
          (clientId, request.slotId, request.profileId) ∈ started.erase (key request) →
          s.Owns clientId request.slotId request.profileId →
          clientId ∈ (call.leave request.clientId).ownersId := by
        rintro clientId hmem ⟨call', hcall', howner⟩
        obtain rfl := Option.some.inj (hcall.symm.trans hcall')
        have hne : clientId ≠ request.clientId := by
          rintro rfl
          exact Finset.ne_of_mem_erase hmem rfl
        exact Finset.mem_erase.mpr ⟨hne, howner⟩
      dsimp only
      split_ifs with hleft
      · exact h.erase.cache hslot (Finset.nonempty_iff_ne_empty.mpr hleft) hother
      · have hempty : (call.leave request.clientId).ownersId = ∅ := not_not.mp hleft
        have htasks := (sameTasks_uncache s request.slotId request.profileId).startTasks
        rw [endCall, if_pos (hfamily hs call hcall hempty)]
        refine ⟨?_, h.owners.uncache hslot, fun clientId slotId profileId hmem => ?_⟩
        · intro task htask
          exact h.validSlot task (htasks ▸ htask)
        · rcases h.erase.started clientId slotId profileId hmem with howns | ⟨task, htask, hkey⟩
          · left
            refine (owns_uncache hslot clientId slotId profileId).mpr ⟨?_, howns⟩
            rintro ⟨rfl, rfl⟩
            have hmem' := hother clientId hmem howns
            rw [hempty] at hmem'
            exact Finset.notMem_empty _ hmem'
          · exact .inr ⟨task, htasks ▸ htask, hkey⟩
  · rw [if_neg hs]
    exact h.erase

theorem Owned.cleanUpService (h : Owned ⟨s, started⟩) (clientId : Int) :
    Owned ⟨s.cleanUpService clientId, started.filter fun k => k.1 ≠ clientId⟩ := by
  have htasks := (sameTasks_cleanUpService s clientId).startTasks
  refine ⟨?_, h.owners.cleanUpService clientId, fun clientId' slotId profileId hmem => ?_⟩
  · intro task htask
    exact h.validSlot task (htasks ▸ htask)
  · obtain ⟨hmem, hne⟩ := Finset.mem_filter.mp hmem
    rcases h.started clientId' slotId profileId hmem with
      ⟨call, hcall, howner⟩ | ⟨task, htask, hkey⟩
    · have hstays : clientId' ∈ (call.leave clientId).ownersId :=
        Finset.mem_erase.mpr ⟨hne, howner⟩
      refine .inl ⟨call.leave clientId, ?_, hstays⟩
      rw [dataCall?_cleanUpService, hcall, Option.bind_some, if_neg]
      rintro (hall | ⟨-, hempty⟩)
      · cases hall
      · rw [hempty] at hstays
        exact Finset.notMem_empty _ hstays
    · exact .inr ⟨task, htasks ▸ htask, hkey⟩

end Requests

section Tasks

variable {s : DataConnectionServer} {started : Finset (Int × Int × Int)} {task : StartTask}
  {physicalInterfaceName ipv4 ipv6 : String}

/-- A task that is about to run is taken out of the queue: whom it is for may own nothing yet. -/
structure Taken (s : DataConnectionServer) (started : Finset (Int × Int × Int))
    (task : StartTask) : Prop where
  validSlot : ∀ t ∈ s.startTasks, ValidSlot t.slotId
  slot : ValidSlot task.slotId
  owners : s.HasOwners
  started : ∀ clientId slotId profileId, (clientId, slotId, profileId) ∈ started →
    s.Owns clientId slotId profileId ∨ s.Awaits clientId slotId profileId ∨
      task.clientId = clientId ∧ task.slotId = slotId ∧ task.profileId = profileId

theorem Owned.taken (h : Owned ⟨s, started⟩) {n : Nat} (hn : s.startTasks[n]? = some task) :
    Taken { s with startTasks := s.startTasks.eraseIdx n } started task := by
  obtain ⟨hlt, rfl⟩ := List.getElem?_eq_some_iff.mp hn
  refine ⟨?_, h.validSlot _ (List.getElem_mem hlt), h.owners, ?_⟩
  · intro t ht
    exact h.validSlot t (List.mem_of_mem_eraseIdx ht)
  · intro clientId slotId profileId hmem
    rcases h.started clientId slotId profileId hmem with howns | ⟨t, ht, hkey⟩
    · exact .inl howns
    · right
      rcases List.mem_cons.mp ((List.getElem_cons_eraseIdx_perm hlt).mem_iff.mpr ht) with rfl | ht
      · exact .inr hkey
      · exact .inl ⟨t, ht, hkey⟩

theorem Taken.refresh (h : Taken s started task) (conf : String) :
    Taken (s.refresh task conf) started task := by
  rw [DataConnectionServer.refresh]
  split_ifs
  · exact ⟨h.validSlot, h.slot, h.owners, h.started⟩
  · exact h

/-- The task writes a call that its client owns, unless it no longer wants it. -/
theorem Taken.cache {call : DataCallParams} (h : Taken s started task)
    (hne : call.ownersId.Nonempty)
    (hclient : (task.clientId, task.slotId, task.profileId) ∈ started →
      task.clientId ∈ call.ownersId)
    (howners : ∀ clientId, s.Owns clientId task.slotId task.profileId →
      clientId ∈ call.ownersId) :
    Owned ⟨s.cache task.slotId task.profileId call, started⟩ := by
  have htasks := (sameTasks_cache s task.slotId task.profileId call).startTasks
  refine ⟨?_, h.owners.cache h.slot hne, fun clientId slotId profileId hmem => ?_⟩
  · intro t ht
    exact h.validSlot t (htasks ▸ ht)
  · rcases h.started clientId slotId profileId hmem with howns | ⟨t, ht, hkey⟩ | ⟨rfl, rfl, rfl⟩
    · refine .inl (howns.cache h.slot ?_)
      rintro rfl rfl
      exact howners clientId howns
    · exact .inr ⟨t, htasks ▸ ht, hkey⟩
    · left
      rw [owns_cache h.slot, if_pos ⟨rfl, rfl⟩]
      exact hclient hmem

theorem Taken.triggerStartDataCallEvent (h : Taken s started task)
    (hsupported : (((s.refresh task physicalInterfaceName).newCall task).getIpAddresses
      task.ipFamilyType ipv4 ipv6).Supported)
    (hclient : ∀ call ∈ s.dataCall? task.slotId task.profileId,
      task.clientId ∈ call.ownersId ∨ (task.clientId, task.slotId, task.profileId) ∉ started) :
    Owned ⟨s.triggerStartDataCallEvent task physicalInterfaceName ipv4 ipv6, started⟩ := by
  have h' := h.refresh physicalInterfaceName
  have hcalls := dataCall?_refresh s task physicalInterfaceName
  rw [← hcalls] at hclient
  rw [DataConnectionServer.triggerStartDataCallEvent]
  generalize s.refresh task physicalInterfaceName = r at *
  dsimp only
  cases hcall : r.dataCall? task.slotId task.profileId with
  | some call =>
    have hne : call.ownersId.Nonempty := h'.owners _ _ _ hcall
    refine h'.cache hne (fun hmem => ?_) ?_
    · rcases hclient call hcall with howner | hnot
      · exact howner
      · exact absurd hmem hnot
    · rintro clientId ⟨call', hcall', howner⟩
      obtain rfl := Option.some.inj (hcall.symm.trans hcall')
      exact howner
  | none =>
    dsimp only
    rw [if_pos hsupported, keep]
    have hkept : Taken { r with
        inactiveNwIfaces := r.inactiveNwIfaces.erase
          ((r.newCall task).getIpAddresses task.ipFamilyType ipv4 ipv6).ifaceName
        activeNwIfaces := r.activeNwIfaces ++
          [((r.newCall task).getIpAddresses task.ipFamilyType ipv4 ipv6).ifaceName] }
        started task := ⟨h'.validSlot, h'.slot, h'.owners, h'.started⟩
    refine hkept.cache ⟨task.clientId, Finset.mem_singleton_self _⟩
      (fun _ => Finset.mem_singleton_self _) ?_
    rintro clientId ⟨call', hcall', -⟩
    have hnone : r.dataCall? task.slotId task.profileId = some call' := hcall'
    rw [hcall] at hnone
    cases hnone

end Tasks

/-! ## Runs -/

theorem Owned.step {w w' : Clients} (h : w.Owned) {e : Event} (hconsidered : w.server.Considered e)
    (hkeeps : w.KeepsOwners e) (hstep : w.step e = some w') : w'.Owned := by
  obtain ⟨s, started⟩ := w
  obtain ⟨s', hs', rfl⟩ := Option.map_eq_some_iff.mp hstep
  cases e with
  | startDatacall request data allowed =>
    cases data with
    | none =>
      obtain rfl := Option.some.inj hs'
      simpa [record] using h.erase
    | some d =>
      obtain rfl := Option.some.inj hs'
      by_cases hd : (s.startResult request d allowed).Succeeds
      · simpa [record, hd] using h.startDatacall hkeeps hd
      · simpa [record, hd, DataConnectionServer.startDatacall] using h.erase
  | stopDatacall request data =>
    cases data with
    | none =>
      obtain rfl := Option.some.inj hs'
      exact h.erase
    | some d =>
      obtain rfl := Option.some.inj hs'
      exact h.stopDatacall fun hd => hkeeps d rfl hd
  | cleanUpService clientId =>
    obtain rfl := Option.some.inj hs'
    exact h.cleanUpService clientId
  | startTask n physicalInterfaceName ipv4 ipv6 =>
    obtain ⟨task, htask, rfl⟩ := Option.map_eq_some_iff.mp hs'
    exact (h.taken htask).triggerStartDataCallEvent (hconsidered.1 task htask) (hkeeps task htask)
  | stopTask n =>
    obtain ⟨task, -, rfl⟩ := Option.map_eq_some_iff.mp hs'
    exact ⟨h.validSlot, h.owners, h.started⟩
  | stopActiveDataCalls slotId => exact absurd rfl (hconsidered.2 slotId)

/-- Where the start tasks run for owners and the last owner names the family of its call, no
client loses a call that it has started. -/
theorem settled_of_keepsOwners {w : Clients}
    (h : Reachable step (fun w e => w.server.Considered e ∧ w.KeepsOwners e) new w) :
    w.Settled := by
  apply Owned.settled
  apply h.invariant owned_new
  intro w e w' hok hstep hw
  exact hw.step hok.1 hok.2 hstep

/-- A client that joins the call of another one and leaves it again. -/
def joinAndLeave : List Event :=
  let request (clientId : Int) : DataCallInputParams := ⟨1, 5, .ipv4, clientId, ""⟩
  let api : ApiResult := ⟨.success, .success⟩
  [.startDatacall (request 1) (some api) true, .startTask 0 "eth0" "192.168.1.10" "",
    .startDatacall (request 2) (some api) true, .stopDatacall (request 1) (some api)]

theorem join_and_leave_settled :
    ∃ w : Clients, w.started = {(2, 1, 5)} ∧ w.server.startTasks = [] ∧ w.Settled := by
  obtain ⟨w, hw, hf⟩ := exists_reachable_of_run step
    (fun w e => w.server.Considered e ∧ w.KeepsOwners e) new
    (fun w => (w.started, w.server.startTasks)) ({(2, 1, 5)}, []) joinAndLeave (by decide)
  obtain ⟨hstarted, htasks⟩ := Prod.mk.inj hf
  exact ⟨w, hstarted, htasks, settled_of_keepsOwners hw⟩

instance (w : Clients) (clientId slotId profileId : Int) :
    Decidable (w.server.Owns clientId slotId profileId) :=
  decidable_of_iff (∃ call ∈ w.server.dataCall? slotId profileId, clientId ∈ call.ownersId) Iff.rfl

/-- A second client that starts the same call before the task of the first has run. -/
def secondStart : List Event :=
  let request (clientId : Int) : DataCallInputParams := ⟨1, 5, .ipv4, clientId, ""⟩
  let api : ApiResult := ⟨.success, .success⟩
  [.startDatacall (request 1) (some api) true, .startDatacall (request 2) (some api) true,
    .startTask 0 "eth0" "192.168.1.10" "", .startTask 0 "eth0" "192.168.1.10" ""]

/-- The second client was answered with success and does not own the call. -/
theorem second_start_not_settled :
    ∃ w, Reachable step (fun w e => w.server.Considered e) new w ∧ ¬ w.Settled := by
  obtain ⟨w, hw, hf⟩ := exists_reachable_of_run step
    (fun w e => w.server.Considered e) new
    (fun w => (decide (w.server.startTasks = []), decide (w.server.stopTasks = []),
      decide ((2, 1, 5) ∈ w.started), decide (w.server.Owns 2 1 5)))
    (true, true, true, false) secondStart (by decide)
  simp only [Prod.mk.injEq, decide_eq_true_eq, decide_eq_false_iff_not] at hf
  obtain ⟨hstart, hstop, hmem, hnot⟩ := hf
  exact ⟨w, hw, fun hsettled => hnot ((hsettled hstart hstop).2 2 1 5 hmem)⟩

end Clients

end Data

end SatComm
