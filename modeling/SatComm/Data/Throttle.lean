import SatComm.Runs.Basic

/-!
# The throttled APNs

`handleThrottleApnEvent` loads the list of the throttled APNs and starts and stops a timer, a thread
that takes a second off the times in each turn and clears the list when all are over. Events are
handled one after the other, but beside the threads: a START that comes while a thread has found the
times over and has not ended yet lets two of them run.

A thread and the handler of an event are taken from one access to what they share to the next.
-/

namespace SatComm

namespace Data

structure APNThrottleInfo where
  apn : String
  profileIds : List Int
  ipv4Time : Nat
  ipv6Time : Nat
  isBlocked : Bool
  mcc : String
  mnc : String
deriving DecidableEq, Repr

namespace APNThrottleInfo

/-- A second less. -/
def elapse (info : APNThrottleInfo) : APNThrottleInfo :=
  { info with
    ipv4Time := if 1000 ≤ info.ipv4Time then info.ipv4Time - 1000 else 0
    ipv6Time := if 1000 ≤ info.ipv6Time then info.ipv6Time - 1000 else 0 }

/-- `n` seconds less. -/
def after (n : Nat) (info : APNThrottleInfo) : APNThrottleInfo :=
  { info with
    ipv4Time := info.ipv4Time - 1000 * n
    ipv6Time := info.ipv6Time - 1000 * n }

/-- Both times are over in `n` seconds. -/
def OverIn (n : Nat) (info : APNThrottleInfo) : Prop :=
  info.ipv4Time ≤ 1000 * n ∧ info.ipv6Time ≤ 1000 * n

theorem after_zero (info : APNThrottleInfo) : info.after 0 = info := rfl

theorem elapse_after (n : Nat) (info : APNThrottleInfo) :
    (info.after n).elapse = info.after (n + 1) := by
  have hsub : ∀ time : Nat, (if 1000 ≤ time - 1000 * n then time - 1000 * n - 1000 else 0) =
      time - 1000 * (n + 1) := by
    intro time
    by_cases hle : 1000 ≤ time - 1000 * n
    · rw [if_pos hle]
      omega
    · rw [if_neg hle]
      omega
  have hipv4 : (info.after n).elapse.ipv4Time = (info.after (n + 1)).ipv4Time := hsub info.ipv4Time
  have hipv6 : (info.after n).elapse.ipv6Time = (info.after (n + 1)).ipv6Time := hsub info.ipv6Time
  exact (APNThrottleInfo.mk.injEq ..).mpr ⟨rfl, rfl, hipv4, hipv6, rfl, rfl, rfl⟩

theorem OverIn.mono {info : APNThrottleInfo} {m n : Nat} (h : info.OverIn m) (hle : m ≤ n) :
    info.OverIn n := ⟨by have := h.1; omega, by have := h.2; omega⟩

theorem after_over_iff (n : Nat) (info : APNThrottleInfo) :
    (info.after n).ipv4Time = 0 ∧ (info.after n).ipv6Time = 0 ↔ info.OverIn n := by
  simp only [after, OverIn]
  omega

end APNThrottleInfo

inductive ThrottleEvent
  | reset | start | stop
deriving DecidableEq, Repr

/-- What a thread of the timer does next: it looks at `timerStarted_`, sleeps and takes a second
off, notifies the clients, calls `checkRetryTimeElapsed`, stops the timer or notifies for the last
time. -/
inductive TimerPhase
  | loop | sleep | notify | check | elapsed | last
deriving DecidableEq, Repr

structure TimerThread where
  id : Nat
  counter : Nat
  phase : TimerPhase
deriving DecidableEq, Repr

/-- What the handler of an event does next. -/
inductive HandlerPhase
  | idle
  /-- It waits for the thread of the timer. -/
  | join (reset : Bool)
  | reload
  | load
  | launch
  /-- The new thread runs; its future is assigned when the thread of the old one has ended. -/
  | assign (id : Nat)
deriving DecidableEq, Repr

structure Throttle where
  apnThrottleInfo : List APNThrottleInfo
  timerStarted : Bool
  /-- The thread of `timerFuture_`, which may have ended. -/
  timerFuture : Option Nat
  threads : List TimerThread
  handler : HandlerPhase
  launched : Nat
  /-- The list as it was loaded, and the turns of the threads since. -/
  loaded : List APNThrottleInfo
  turns : Nat
deriving DecidableEq

namespace Throttle

inductive Label
  | event (e : ThrottleEvent)
  /-- The handler goes on, with the list of the configuration where that can be read. -/
  | handler (info : Option (List APNThrottleInfo))
  | thread (i : Nat)
deriving DecidableEq, Repr

def new : Throttle := ⟨[], false, none, [], .idle, 0, [], 0⟩

def handleThrottleApnEvent (s : Throttle) : ThrottleEvent → Throttle
  | .start => if s.timerStarted then s else { s with handler := .load }
  | .stop =>
    if s.timerStarted then
      { s with timerStarted := false, handler := if s.timerFuture.isSome then .join false else .idle }
    else s
  | .reset =>
    if s.timerStarted then
      { s with timerStarted := false, handler := if s.timerFuture.isSome then .join true else .reload }
    else { s with handler := .reload }

def updateThrottleApnInfo (s : Throttle) : Option (List APNThrottleInfo) → Throttle
  | some info => { s with apnThrottleInfo := info, loaded := info, turns := 0 }
  | none => s

/-- The thread of the future has not ended. -/
def Awaited (s : Throttle) : Prop := ∃ t ∈ s.threads, s.timerFuture = some t.id

instance (s : Throttle) : Decidable s.Awaited := inferInstanceAs (Decidable (∃ t ∈ s.threads, _))

def handle (s : Throttle) (info : Option (List APNThrottleInfo)) : Option Throttle :=
  match s.handler with
  | .idle => none
  | .join reset =>
    if s.Awaited then none
    else some { s with timerFuture := none, handler := if reset then .reload else .idle }
  | .reload => some { s.updateThrottleApnInfo info with handler := .idle }
  | .load =>
    if s.apnThrottleInfo = [] then some { s.updateThrottleApnInfo info with handler := .launch }
    else some { s with handler := .launch }
  | .launch =>
    some { s with
      timerStarted := true
      threads := s.threads ++ [⟨s.launched, 0, .loop⟩]
      handler := .assign s.launched
      launched := s.launched + 1 }
  | .assign id =>
    if s.Awaited then none else some { s with timerFuture := some id, handler := .idle }

def run (s : Throttle) (i : Nat) (t : TimerThread) : Throttle :=
  match t.phase with
  | .loop =>
    if s.timerStarted then { s with threads := s.threads.set i { t with phase := .sleep } }
    else { s with threads := s.threads.eraseIdx i }
  | .sleep =>
    { s with
      apnThrottleInfo := s.apnThrottleInfo.map APNThrottleInfo.elapse
      threads := s.threads.set i { t with
        counter := t.counter + 1
        phase := if (t.counter + 1) % 5 = 0 then .notify else .check }
      turns := s.turns + 1 }
  | .notify => { s with threads := s.threads.set i { t with phase := .check } }
  | .check =>
    if ∀ info ∈ s.apnThrottleInfo, info.ipv4Time = 0 ∧ info.ipv6Time = 0 then
      { s with
        apnThrottleInfo := []
        threads := s.threads.set i { t with phase := .elapsed } }
    else { s with threads := s.threads.set i { t with phase := .loop } }
  | .elapsed =>
    { s with
      timerStarted := false
      threads := s.threads.set i { t with phase := .last } }
  | .last => { s with threads := s.threads.set i { t with phase := .loop } }

def step (s : Throttle) : Label → Option Throttle
  | .event e => if s.handler = .idle then some (s.handleThrottleApnEvent e) else none
  | .handler info => s.handle info
  | .thread i => (s.threads[i]?).map (s.run i)

/-- A thread is launched when the ones before it have ended. -/
def Paced (s : Throttle) : Label → Prop
  | .handler _ => s.handler = .launch → s.threads = []
  | _ => True

/-- The seconds since the list was loaded are off the times. Where the list is cleared, they are
over. -/
structure Elapsing (s : Throttle) : Prop where
  times : s.apnThrottleInfo = s.loaded.map (APNThrottleInfo.after s.turns) ∨
    s.apnThrottleInfo = [] ∧ ∀ info ∈ s.loaded, info.OverIn s.turns

/-- A thread that runs is the one of the future or is being assigned to it. -/
structure Owned (s : Throttle) : Prop where
  nodup : (s.threads.map TimerThread.id).Nodup
  lt : ∀ t ∈ s.threads, t.id < s.launched
  owner : ∀ t ∈ s.threads, s.timerFuture = some t.id ∨ s.handler = .assign t.id

theorem elapsing_new : new.Elapsing := ⟨.inl rfl⟩

theorem owned_new : new.Owned :=
  ⟨List.nodup_nil, fun _ ht => (List.not_mem_nil ht).elim, fun _ ht => (List.not_mem_nil ht).elim⟩

theorem Elapsing.update {s : Throttle} (h : s.Elapsing) (info : Option (List APNThrottleInfo)) :
    (s.updateThrottleApnInfo info).Elapsing := by
  cases info with
  | none => exact h
  | some info =>
    exact ⟨.inl ((List.map_congr_left fun i _ => i.after_zero).trans (List.map_id info)).symm⟩

theorem Elapsing.handle {s s' : Throttle} (h : s.Elapsing) {info : Option (List APNThrottleInfo)}
    (hs : s.handle info = some s') : s'.Elapsing := by
  rw [Throttle.handle] at hs
  cases hh : s.handler with
  | idle =>
    rw [hh] at hs
    cases hs
  | join reset =>
    simp only [hh] at hs
    split at hs
    · cases hs
    · cases hs
      exact ⟨h.times⟩
  | reload =>
    simp only [hh] at hs
    cases hs
    exact ⟨(h.update info).times⟩
  | load =>
    simp only [hh] at hs
    split at hs
    · cases hs
      exact ⟨(h.update info).times⟩
    · cases hs
      exact ⟨h.times⟩
  | launch =>
    simp only [hh] at hs
    cases hs
    exact ⟨h.times⟩
  | assign id =>
    simp only [hh] at hs
    split at hs
    · cases hs
    · cases hs
      exact ⟨h.times⟩

/-- A check clears the list just if the times are over. -/
theorem Elapsing.over_iff {s : Throttle} (h : s.Elapsing) :
    (∀ info ∈ s.apnThrottleInfo, info.ipv4Time = 0 ∧ info.ipv6Time = 0) ↔
      ∀ info ∈ s.loaded, info.OverIn s.turns := by
  rcases h.times with htimes | ⟨hnil, hover⟩
  · rw [htimes]
    simp only [List.mem_map, forall_exists_index, and_imp, forall_apply_eq_imp_iff₂,
      APNThrottleInfo.after_over_iff]
  · rw [hnil]
    exact iff_of_true (fun info hinfo => (List.not_mem_nil hinfo).elim) hover

theorem Elapsing.run {s : Throttle} (h : s.Elapsing) (i : Nat) (t : TimerThread) :
    (s.run i t).Elapsing := by
  rw [Throttle.run]
  cases t.phase with
  | loop =>
    simp only
    split
    · exact ⟨h.times⟩
    · exact ⟨h.times⟩
  | sleep =>
    rcases h.times with htimes | ⟨hnil, hover⟩
    · refine ⟨.inl ?_⟩
      simp only [htimes, List.map_map]
      exact List.map_congr_left fun info _ => APNThrottleInfo.elapse_after s.turns info
    · refine ⟨.inr ⟨by simp [hnil], fun info hinfo => ?_⟩⟩
      exact (hover info hinfo).mono (Nat.le_succ _)
  | notify => exact ⟨h.times⟩
  | check =>
    simp only
    split
    · rename_i hzero
      exact ⟨.inr ⟨rfl, h.over_iff.mp hzero⟩⟩
    · exact ⟨h.times⟩
  | elapsed => exact ⟨h.times⟩
  | last => exact ⟨h.times⟩

theorem Elapsing.event {s : Throttle} (h : s.Elapsing) (e : ThrottleEvent) :
    (s.handleThrottleApnEvent e).Elapsing := by
  cases e with
  | start =>
    rw [handleThrottleApnEvent]
    split <;> exact ⟨h.times⟩
  | stop =>
    rw [handleThrottleApnEvent]
    split <;> exact ⟨h.times⟩
  | reset =>
    rw [handleThrottleApnEvent]
    split <;> exact ⟨h.times⟩

theorem Elapsing.step {s s' : Throttle} (h : s.Elapsing) {l : Label} (hs : s.step l = some s') :
    s'.Elapsing := by
  cases l with
  | event e =>
    rw [Throttle.step] at hs
    split at hs
    · cases hs
      exact h.event e
    · cases hs
  | handler info => exact h.handle hs
  | thread i =>
    obtain ⟨t, -, rfl⟩ := Option.map_eq_some_iff.mp hs
    exact h.run i t

theorem Owned.event {s : Throttle} (h : s.Owned) (hidle : s.handler = .idle) (e : ThrottleEvent) :
    (s.handleThrottleApnEvent e).Owned := by
  have howner : ∀ t ∈ s.threads, s.timerFuture = some t.id := by
    intro t ht
    rcases h.owner t ht with howner | hassign
    · exact howner
    · rw [hidle] at hassign
      cases hassign
  have hkeep : ∀ s' : Throttle, s'.threads = s.threads → s'.launched = s.launched →
      s'.timerFuture = s.timerFuture → s'.Owned := by
    intro s' hthreads hlaunched hfuture
    refine ⟨hthreads ▸ h.nodup, by rw [hthreads, hlaunched]; exact h.lt, ?_⟩
    rw [hthreads, hfuture]
    exact fun t ht => .inl (howner t ht)
  cases e with
  | start =>
    rw [handleThrottleApnEvent]
    split
    · exact h
    · exact hkeep _ rfl rfl rfl
  | stop =>
    rw [handleThrottleApnEvent]
    split
    · exact hkeep _ rfl rfl rfl
    · exact h
  | reset =>
    rw [handleThrottleApnEvent]
    split
    · exact hkeep _ rfl rfl rfl
    · exact hkeep _ rfl rfl rfl

/-- Where no thread is being assigned, the future's thread is the only one. -/
theorem Owned.owner_of_ne {s : Throttle} (h : s.Owned) (hne : ∀ id, s.handler ≠ .assign id) :
    ∀ t ∈ s.threads, s.timerFuture = some t.id := by
  intro t ht
  rcases h.owner t ht with howner | hassign
  · exact howner
  · exact absurd hassign (hne t.id)

theorem Owned.handle {s s' : Throttle} (h : s.Owned) {info : Option (List APNThrottleInfo)}
    (hs : s.handle info = some s') : s'.Owned := by
  have hupdate : (s.updateThrottleApnInfo info).threads = s.threads ∧
      (s.updateThrottleApnInfo info).launched = s.launched ∧
      (s.updateThrottleApnInfo info).timerFuture = s.timerFuture := by
    cases info <;> exact ⟨rfl, rfl, rfl⟩
  obtain ⟨hthreads, hlaunched, hfuture⟩ := hupdate
  rw [Throttle.handle] at hs
  cases hh : s.handler with
  | idle =>
    rw [hh] at hs
    cases hs
  | join reset =>
    simp only [hh] at hs
    have howner := h.owner_of_ne fun id hassign => by rw [hh] at hassign; cases hassign
    split at hs
    · cases hs
    · rename_i hended
      cases hs
      have hnone : s.threads = [] := by
        apply List.eq_nil_iff_forall_not_mem.mpr
        exact fun t ht => hended ⟨t, ht, howner t ht⟩
      refine ⟨h.nodup, h.lt, ?_⟩
      simp only [hnone]
      exact fun t ht => (List.not_mem_nil ht).elim
  | reload =>
    simp only [hh] at hs
    have howner := h.owner_of_ne fun id hassign => by rw [hh] at hassign; cases hassign
    cases hs
    refine ⟨?_, ?_, ?_⟩
    · simp only [hthreads]
      exact h.nodup
    · simp only [hthreads, hlaunched]
      exact h.lt
    · simp only [hthreads, hfuture]
      exact fun t ht => .inl (howner t ht)
  | load =>
    simp only [hh] at hs
    have howner := h.owner_of_ne fun id hassign => by rw [hh] at hassign; cases hassign
    split at hs
    · cases hs
      refine ⟨?_, ?_, ?_⟩
      · simp only [hthreads]
        exact h.nodup
      · simp only [hthreads, hlaunched]
        exact h.lt
      · simp only [hthreads, hfuture]
        exact fun t ht => .inl (howner t ht)
    · cases hs
      exact ⟨h.nodup, h.lt, fun t ht => .inl (howner t ht)⟩
  | launch =>
    simp only [hh] at hs
    have howner := h.owner_of_ne fun id hassign => by rw [hh] at hassign; cases hassign
    cases hs
    refine ⟨?_, ?_, ?_⟩
    · rw [List.map_append]
      apply h.nodup.append (List.nodup_singleton _)
      intro id hid hnew
      obtain ⟨t, ht, rfl⟩ := List.mem_map.mp hid
      exact (h.lt t ht).ne (List.mem_singleton.mp hnew)
    · intro t ht
      rcases List.mem_append.mp ht with ht | ht
      · exact (h.lt t ht).trans (Nat.lt_succ_self _)
      · rw [List.mem_singleton.mp ht]
        exact Nat.lt_succ_self _
    · intro t ht
      rcases List.mem_append.mp ht with ht | ht
      · exact .inl (howner t ht)
      · rw [List.mem_singleton.mp ht]
        exact .inr rfl
  | assign id =>
    simp only [hh] at hs
    split at hs
    · cases hs
    · rename_i hended
      cases hs
      refine ⟨h.nodup, h.lt, ?_⟩
      intro t ht
      rcases h.owner t ht with howner | hassign
      · exact absurd ⟨t, ht, howner⟩ hended
      · rw [hh] at hassign
        exact .inl (congrArg some (HandlerPhase.assign.inj hassign))

/-- A step of a thread changes the thread or ends it. -/
theorem threads_run (s : Throttle) (i : Nat) (t : TimerThread) :
    (∃ t', t'.id = t.id ∧ (s.run i t).threads = s.threads.set i t') ∨
      t.phase = .loop ∧ s.timerStarted = false ∧ (s.run i t).threads = s.threads.eraseIdx i := by
  rw [run]
  cases hphase : t.phase with
  | loop =>
    cases hstarted : s.timerStarted with
    | true => exact .inl ⟨{ t with phase := .sleep }, rfl, rfl⟩
    | false => exact .inr ⟨rfl, rfl, rfl⟩
  | sleep =>
    exact .inl ⟨{ t with
      counter := t.counter + 1
      phase := if (t.counter + 1) % 5 = 0 then .notify else .check }, rfl, rfl⟩
  | notify => exact .inl ⟨{ t with phase := .check }, rfl, rfl⟩
  | check =>
    simp only
    split
    · exact .inl ⟨{ t with phase := .elapsed }, rfl, rfl⟩
    · exact .inl ⟨{ t with phase := .loop }, rfl, rfl⟩
  | elapsed => exact .inl ⟨{ t with phase := .last }, rfl, rfl⟩
  | last => exact .inl ⟨{ t with phase := .loop }, rfl, rfl⟩

theorem run_fields (s : Throttle) (i : Nat) (t : TimerThread) :
    (s.run i t).handler = s.handler ∧ (s.run i t).launched = s.launched ∧
      (s.run i t).timerFuture = s.timerFuture := by
  rw [run]
  cases t.phase with
  | loop =>
    simp only
    split <;> exact ⟨rfl, rfl, rfl⟩
  | check =>
    simp only
    split <;> exact ⟨rfl, rfl, rfl⟩
  | sleep => exact ⟨rfl, rfl, rfl⟩
  | notify => exact ⟨rfl, rfl, rfl⟩
  | elapsed => exact ⟨rfl, rfl, rfl⟩
  | last => exact ⟨rfl, rfl, rfl⟩

theorem Owned.run {s : Throttle} (h : s.Owned) {i : Nat} {t : TimerThread}
    (ht : s.threads[i]? = some t) : (s.run i t).Owned := by
  obtain ⟨hhandler, hlaunched, hfuture⟩ := run_fields s i t
  have hids : ((s.run i t).threads.map TimerThread.id).Sublist (s.threads.map TimerThread.id) := by
    rcases threads_run s i t with ⟨t', hid, heq⟩ | ⟨-, -, heq⟩
    · rw [heq, List.map_set, hid]
      obtain ⟨hlt, rfl⟩ := List.getElem?_eq_some_iff.mp ht
      rw [← List.map_set, List.set_getElem_self]
    · rw [heq]
      exact (List.eraseIdx_sublist _ _).map _
  have hmem : ∀ t' ∈ (s.run i t).threads, ∃ t ∈ s.threads, t.id = t'.id := by
    intro t' ht'
    have hid := hids.subset (List.mem_map_of_mem ht')
    exact List.mem_map.mp hid
  refine ⟨h.nodup.sublist hids, ?_, ?_⟩
  · intro t' ht'
    obtain ⟨t, ht, hid⟩ := hmem t' ht'
    rw [hlaunched, ← hid]
    exact h.lt t ht
  · intro t' ht'
    obtain ⟨t, ht, hid⟩ := hmem t' ht'
    rw [hfuture, hhandler, ← hid]
    exact h.owner t ht

theorem Owned.step {s s' : Throttle} (h : s.Owned) {l : Label} (hs : s.step l = some s') :
    s'.Owned := by
  cases l with
  | event e =>
    rw [Throttle.step] at hs
    split at hs
    · rename_i hidle
      cases hs
      exact h.event hidle e
    · cases hs
  | handler info => exact h.handle hs
  | thread i =>
    obtain ⟨t, ht, rfl⟩ := Option.map_eq_some_iff.mp hs
    exact h.run ht

/-- There is one thread, and beside it at most one that is being assigned. -/
theorem Owned.length_le {s : Throttle} (h : s.Owned) :
    s.threads.length ≤ 2 ∧ (s.threads.length = 2 → ∃ id, s.handler = .assign id) := by
  have hlength : ∀ l : List Nat, (∀ t ∈ s.threads, t.id ∈ l) → s.threads.length ≤ l.length := by
    intro l hl
    have hsub : s.threads.map TimerThread.id ⊆ l := by
      intro id hid
      obtain ⟨t, ht, rfl⟩ := List.mem_map.mp hid
      exact hl t ht
    have hle := (h.nodup.subperm hsub).length_le
    rwa [List.length_map] at hle
  have hfuture : ∀ id, s.timerFuture = some id → id ∈ s.timerFuture.toList := by
    intro id hid
    simp [hid]
  have hone : s.timerFuture.toList.length ≤ 1 := by cases s.timerFuture <;> simp
  by_cases hassign : ∃ id, s.handler = .assign id
  · refine ⟨?_, fun _ => hassign⟩
    obtain ⟨id, hid⟩ := hassign
    have hle := hlength (id :: s.timerFuture.toList) fun t ht => by
      rcases h.owner t ht with howner | hnew
      · exact List.mem_cons_of_mem _ (hfuture _ howner)
      · rw [hid] at hnew
        rw [HandlerPhase.assign.inj hnew]
        exact List.mem_cons_self
    simp only [List.length_cons] at hle
    omega
  · have howner := h.owner_of_ne fun id hid => hassign ⟨id, hid⟩
    have hle := hlength s.timerFuture.toList fun t ht => hfuture _ (howner t ht)
    exact ⟨by omega, fun htwo => by omega⟩

instance (s : Throttle) : ∀ l, Decidable (s.Paced l)
  | .event _ => inferInstanceAs (Decidable True)
  | .handler _ => inferInstanceAs (Decidable (_ → _))
  | .thread _ => inferInstanceAs (Decidable True)

/-- Whatever the order in which handlers and threads go on: the times are those that were loaded,
less a second for each turn since; they are cleared by the first check that finds them over, and two
threads run at most while the handler of a START waits for the older one. -/
theorem times_elapse (s : Throttle) (h : Runs.Reachable step Runs.anyStep new s) :
    (s.apnThrottleInfo = s.loaded.map (APNThrottleInfo.after s.turns) ∨
      s.apnThrottleInfo = [] ∧ ∀ info ∈ s.loaded, info.OverIn s.turns) ∧
    (∀ i t, s.threads[i]? = some t → t.phase = .check →
      ((s.run i t).apnThrottleInfo = [] ↔ ∀ info ∈ s.loaded, info.OverIn s.turns)) ∧
    s.threads.length ≤ 2 ∧ (s.threads.length = 2 → ∃ id, s.handler = .assign id) := by
  have helapsing : s.Elapsing := h.invariant elapsing_new fun _ _ _ _ hs hinv => hinv.step hs
  have howned : s.Owned := h.invariant owned_new fun _ _ _ _ hs hinv => hinv.step hs
  refine ⟨helapsing.times, ?_, howned.length_le⟩
  intro i t _ hcheck
  rw [← helapsing.over_iff, run, hcheck]
  simp only
  split
  · rename_i hzero
    exact iff_of_true rfl hzero
  · rename_i hzero
    refine iff_of_false ?_ hzero
    intro hnil
    apply hzero
    intro info hinfo
    rw [show s.apnThrottleInfo = [] from hnil] at hinfo
    exact (List.not_mem_nil hinfo).elim

/-- The timer finds the times of an APN over. -/
def elapsedTimer : List Label :=
  [.event .start, .handler (some [⟨"internet", [1], 1000, 0, false, "", ""⟩]), .handler none,
    .handler none, .thread 0, .thread 0, .thread 0, .thread 0]

theorem times_elapse_elapsed : ∃ s : Throttle, s.turns = 1 ∧
    (s.apnThrottleInfo = s.loaded.map (APNThrottleInfo.after 1) ∨
      s.apnThrottleInfo = [] ∧ ∀ info ∈ s.loaded, info.OverIn 1) ∧ s.threads.length ≤ 2 := by
  obtain ⟨s, hs, hturns⟩ := Runs.exists_reachable_of_run step Runs.anyStep new turns 1
    elapsedTimer (by decide)
  obtain ⟨htimes, -, hlength, -⟩ := times_elapse s hs
  rw [hturns] at htimes
  exact ⟨s, hturns, htimes, hlength⟩

/-- In a paced run: at most one thread, which is in a turn only while the timer is started or a
handler waits for it. -/
structure Stopping (s : Throttle) : Prop where
  owned : s.Owned
  length : s.threads.length ≤ 1
  active : ∀ t ∈ s.threads, t.phase = .loop ∨ t.phase = .last ∨ s.timerStarted = true ∨
    ∃ reset, s.handler = .join reset

theorem stopping_new : new.Stopping :=
  ⟨owned_new, Nat.zero_le _, fun _ ht => (List.not_mem_nil ht).elim⟩

theorem Stopping.event {s : Throttle} (h : s.Stopping) (hidle : s.handler = .idle)
    (e : ThrottleEvent) : (s.handleThrottleApnEvent e).Stopping := by
  have howned := h.owned.event hidle e
  have hactive : ∀ t ∈ s.threads, t.phase = .loop ∨ t.phase = .last ∨ s.timerStarted = true := by
    intro t ht
    rcases h.active t ht with hloop | hlast | hstarted | ⟨reset, hjoin⟩
    · exact .inl hloop
    · exact .inr (.inl hlast)
    · exact .inr (.inr hstarted)
    · rw [hidle] at hjoin
      cases hjoin
  have hnone : s.timerFuture = none → s.threads = [] := by
    intro hfuture
    apply List.eq_nil_iff_forall_not_mem.mpr
    intro t ht
    have howner := h.owned.owner_of_ne (fun id hid => by rw [hidle] at hid; cases hid) t ht
    rw [hfuture] at howner
    cases howner
  -- a thread in a turn is waited for where the timer is stopped
  have hstop : ∀ reset after, ∀ t ∈ s.threads, t.phase = .loop ∨ t.phase = .last ∨ false = true ∨
      ∃ r, (if s.timerFuture.isSome then HandlerPhase.join reset else after) = .join r := by
    intro reset after t ht
    cases hfuture : s.timerFuture with
    | none =>
      rw [hnone hfuture] at ht
      exact (List.not_mem_nil ht).elim
    | some id => exact .inr (.inr (.inr ⟨reset, rfl⟩))
  have hkeep : ∀ handler, ∀ t ∈ s.threads, t.phase = .loop ∨ t.phase = .last ∨
      s.timerStarted = true ∨ ∃ r, handler = HandlerPhase.join r := by
    intro handler t ht
    rcases hactive t ht with hloop | hlast | hstarted
    · exact .inl hloop
    · exact .inr (.inl hlast)
    · exact .inr (.inr (.inl hstarted))
  cases e with
  | start =>
    rw [handleThrottleApnEvent] at howned ⊢
    split at howned <;> rename_i hstarted
    · rw [if_pos hstarted]
      exact h
    · rw [if_neg hstarted]
      exact ⟨howned, h.length, hkeep _⟩
  | stop =>
    rw [handleThrottleApnEvent] at howned ⊢
    split at howned <;> rename_i hstarted
    · rw [if_pos hstarted]
      exact ⟨howned, h.length, hstop _ _⟩
    · rw [if_neg hstarted]
      exact h
  | reset =>
    rw [handleThrottleApnEvent] at howned ⊢
    split at howned <;> rename_i hstarted
    · rw [if_pos hstarted]
      exact ⟨howned, h.length, hstop _ _⟩
    · rw [if_neg hstarted]
      exact ⟨howned, h.length, hkeep _⟩

theorem Stopping.handle {s s' : Throttle} (h : s.Stopping) {info : Option (List APNThrottleInfo)}
    (hpaced : s.handler = .launch → s.threads = []) (hs : s.handle info = some s') :
    s'.Stopping := by
  have howned := h.owned.handle hs
  have hupdate : (s.updateThrottleApnInfo info).threads = s.threads ∧
      (s.updateThrottleApnInfo info).timerStarted = s.timerStarted := by
    cases info <;> exact ⟨rfl, rfl⟩
  have hactive : (∀ reset, s.handler ≠ .join reset) → ∀ handler, ∀ t ∈ s.threads,
      t.phase = .loop ∨ t.phase = .last ∨ s.timerStarted = true ∨
        ∃ r, handler = HandlerPhase.join r := by
    intro hne handler t ht
    rcases h.active t ht with hloop | hlast | hstarted | ⟨reset, hjoin⟩
    · exact .inl hloop
    · exact .inr (.inl hlast)
    · exact .inr (.inr (.inl hstarted))
    · exact absurd hjoin (hne reset)
  rw [Throttle.handle] at hs
  cases hh : s.handler with
  | idle =>
    rw [hh] at hs
    cases hs
  | join reset =>
    simp only [hh] at hs
    split at hs
    · cases hs
    · rename_i hended
      cases hs
      have hnone : s.threads = [] := by
        apply List.eq_nil_iff_forall_not_mem.mpr
        intro t ht
        exact hended ⟨t, ht, h.owned.owner_of_ne (fun id hid => by rw [hh] at hid; cases hid) t ht⟩
      refine ⟨howned, h.length, ?_⟩
      simp only [hnone]
      exact fun t ht => (List.not_mem_nil ht).elim
  | reload =>
    simp only [hh] at hs
    cases hs
    refine ⟨howned, ?_, ?_⟩
    · simp only [hupdate.1]
      exact h.length
    · simp only [hupdate.1, hupdate.2]
      exact hactive (fun r hr => by rw [hh] at hr; cases hr) _
  | load =>
    simp only [hh] at hs
    have hkeep := hactive fun r hr => by rw [hh] at hr; cases hr
    split at hs
    · cases hs
      refine ⟨howned, ?_, ?_⟩
      · simp only [hupdate.1]
        exact h.length
      · simp only [hupdate.1, hupdate.2]
        exact hkeep _
    · cases hs
      exact ⟨howned, h.length, hkeep _⟩
  | launch =>
    simp only [hh] at hs
    cases hs
    refine ⟨howned, ?_, fun _ _ => .inr (.inr (.inl rfl))⟩
    simp [hpaced hh]
  | assign id =>
    simp only [hh] at hs
    split at hs
    · cases hs
    · cases hs
      exact ⟨howned, h.length, hactive (fun r hr => by rw [hh] at hr; cases hr) _⟩

theorem Stopping.run {s : Throttle} (h : s.Stopping) {i : Nat} {t : TimerThread}
    (ht : s.threads[i]? = some t) : (s.run i t).Stopping := by
  have howned := h.owned.run ht
  have hmem := List.mem_of_getElem? ht
  obtain ⟨hlt, -⟩ := List.getElem?_eq_some_iff.mp ht
  have hone : s.threads = [t] := by
    obtain ⟨u, hu⟩ := List.length_eq_one_iff.mp (show s.threads.length = 1 by
      have := h.length
      omega)
    rw [hu] at hmem ⊢
    rw [List.mem_singleton.mp hmem]
  have hi : i = 0 := by
    rw [hone, List.length_singleton] at hlt
    omega
  subst hi
  have hturn : t.phase ≠ .loop → t.phase ≠ .last →
      s.timerStarted = true ∨ ∃ reset, s.handler = .join reset := by
    intro hloop hlast
    rcases h.active t hmem with hphase | hphase | hturn
    · exact absurd hphase hloop
    · exact absurd hphase hlast
    · exact hturn
  refine ⟨howned, ?_, ?_⟩
  · rcases threads_run s 0 t with ⟨t', -, heq⟩ | ⟨-, -, heq⟩
    · rw [heq, hone]
      exact le_refl _
    · rw [heq, hone]
      exact Nat.zero_le _
  · rw [Throttle.run]
    cases hphase : t.phase with
    | loop =>
      simp only
      split
      · rename_i hstarted
        exact fun _ _ => .inr (.inr (.inl hstarted))
      · simp [hone]
    | sleep =>
      simp only [hone, List.set_cons_zero, List.mem_singleton, forall_eq]
      exact .inr (.inr (hturn (by simp [hphase]) (by simp [hphase])))
    | notify =>
      simp only [hone, List.set_cons_zero, List.mem_singleton, forall_eq]
      exact .inr (.inr (hturn (by simp [hphase]) (by simp [hphase])))
    | check =>
      simp only
      split
      · simp only [hone, List.set_cons_zero, List.mem_singleton, forall_eq]
        exact .inr (.inr (hturn (by simp [hphase]) (by simp [hphase])))
      · simp [hone]
    | elapsed => simp [hone]
    | last => simp [hone]

theorem Stopping.step {s s' : Throttle} (h : s.Stopping) {l : Label} (hpaced : s.Paced l)
    (hs : s.step l = some s') : s'.Stopping := by
  cases l with
  | event e =>
    rw [Throttle.step] at hs
    split at hs
    · rename_i hidle
      cases hs
      exact h.event hidle e
    · cases hs
  | handler info => exact h.handle hpaced hs
  | thread i =>
    obtain ⟨t, ht, rfl⟩ := Option.map_eq_some_iff.mp hs
    exact h.run ht

/-- A thread goes on. -/
def Threads (_ : Throttle) : Label → Prop
  | .thread _ => True
  | _ => False

/-- Where every START finds the threads before it ended, a timer that was stopped, or found the
times over, leaves the list as it is until the next event. -/
theorem stopped_kept (s s' : Throttle) (h : Runs.Reachable step Paced new s)
    (hidle : s.handler = .idle) (hstopped : s.timerStarted = false)
    (hrun : Runs.Reachable step Threads s s') :
    s'.apnThrottleInfo = s.apnThrottleInfo ∧ s'.turns = s.turns ∧ s'.timerStarted = false := by
  have hstopping : s.Stopping := h.invariant stopping_new
    fun _ _ _ hpaced hs hinv => hinv.step hpaced hs
  have hkept : s'.Stopping ∧ s'.handler = .idle ∧ s'.apnThrottleInfo = s.apnThrottleInfo ∧
      s'.turns = s.turns ∧ s'.timerStarted = false := by
    apply hrun.invariant ⟨hstopping, hidle, rfl, rfl, hstopped⟩
    rintro u l u' hthread hs ⟨hu, huidle, hlist, hturns, hstarted⟩
    cases l with
    | event e => exact hthread.elim
    | handler info => exact hthread.elim
    | thread i =>
      obtain ⟨t, ht, rfl⟩ := Option.map_eq_some_iff.mp hs
      refine ⟨hu.run ht, (run_fields u i t).1.trans huidle, ?_⟩
      have hphase : t.phase = .loop ∨ t.phase = .last := by
        rcases hu.active t (List.mem_of_getElem? ht) with hloop | hlast | hon | ⟨reset, hjoin⟩
        · exact .inl hloop
        · exact .inr hlast
        · rw [hstarted] at hon
          cases hon
        · rw [huidle] at hjoin
          cases hjoin
      rw [run]
      rcases hphase with hphase | hphase
      · simp only [hphase, hstarted, Bool.false_eq_true, if_false]
        exact ⟨hlist, hturns, trivial⟩
      · simp only [hphase]
        exact ⟨hlist, hturns, hstarted⟩
  exact hkept.2.2

theorem stopped_kept_elapsed : ∃ s s' : Throttle, s.threads = [⟨0, 1, .last⟩] ∧ s'.threads = [] ∧
    s'.apnThrottleInfo = s.apnThrottleInfo ∧ s'.turns = s.turns ∧ s'.timerStarted = false := by
  obtain ⟨s, hs, hstate⟩ := Runs.exists_reachable_of_run step Paced new
    (fun s => (s.handler, s.timerStarted, s.threads)) (.idle, false, [⟨0, 1, .last⟩])
    elapsedTimer (by decide)
  obtain ⟨hidle, hrest⟩ := Prod.mk.inj hstate
  obtain ⟨hstopped, hthreads⟩ := Prod.mk.inj hrest
  have hlast : s.step (.thread 0) = some { s with threads := [⟨0, 1, .loop⟩] } := by
    simp [step, run, hthreads]
  have hend : step { s with threads := [⟨0, 1, .loop⟩] } (.thread 0) =
      some { s with threads := [] } := by
    simp [step, run, hstopped]
  exact ⟨s, _, hthreads, rfl, stopped_kept s _ hs hidle hstopped
    (.step (.thread 0) (.step (.thread 0) .start trivial hlast) trivial hend)⟩

/-- A START between the two last steps of a thread: a list that is reloaded later loses a second
although the timer is stopped. -/
example : (Runs.run step Runs.anyStep new (elapsedTimer ++ [.event .start,
    .handler (some [⟨"internet", [1], 2000, 0, false, "", ""⟩]), .handler none,
    .thread 0, .thread 0, .thread 1, .thread 1, .thread 1, .thread 1, .thread 0, .thread 0,
    .thread 0, .thread 0, .thread 0, .handler none, .event .reset,
    .handler (some [⟨"internet", [1], 2000, 0, false, "", ""⟩]), .thread 0])).map
      (fun s => (s.timerStarted, s.apnThrottleInfo)) =
        some (false, [⟨"internet", [1], 1000, 0, false, "", ""⟩]) := by decide

end Throttle

end Data

end SatComm
