import SatComm.Runs.Basic

/-!
# A pool of threads on one queue of tasks

`TaskDispatcher` starts its threads on one `TaskQueue`. A thread looks whether the queue is shut down,
pops a task, for which it waits, and runs it. The steps of the threads, of those who submit tasks and
of the one who shuts down come in any order. What was submitted, started and finished is kept beside
the state.
-/

namespace SatComm

namespace Tasks

/-- Where a thread of `processTasks` is. -/
inductive TaskThread (τ : Type*)
  | checking
  | popping
  | running (task : τ)
  | ended
deriving DecidableEq, Repr

structure TaskDispatcher (τ : Type*) where
  queue : List τ
  isShutdown : Bool
  taskThreads : List (TaskThread τ)
  submitted : List τ
  started : List τ
  finished : List τ
  /-- Submitted and started after the first `shutdown`. -/
  submittedLate : List τ
  startedLate : List τ
deriving Repr

/-- A step: of a submitter, of the one who shuts down, or of the thread with a number. -/
inductive Step (τ : Type*)
  | submitTask (task : τ)
  | shutdown
  | check (i : Nat)
  | pop (i : Nat)
  | finish (i : Nat)
deriving DecidableEq, Repr

namespace TaskDispatcher

variable {τ : Type*}

def initial (threadCount : Nat) : TaskDispatcher τ :=
  { queue := [], isShutdown := false, taskThreads := List.replicate threadCount .checking
    submitted := [], started := [], finished := [], submittedLate := [], startedLate := [] }

def setThread (s : TaskDispatcher τ) (i : Nat) (t : TaskThread τ) : TaskDispatcher τ :=
  { s with taskThreads := s.taskThreads.set i t }

/-- `TaskQueue::push`, which does not look at `shutdown_`. -/
def push (s : TaskDispatcher τ) (task : τ) : TaskDispatcher τ :=
  { s with
    queue := s.queue ++ [task]
    submitted := s.submitted ++ [task]
    submittedLate := if s.isShutdown then s.submittedLate ++ [task] else s.submittedLate }

/-- `TaskQueue::shutdown`. -/
def shutdown (s : TaskDispatcher τ) : TaskDispatcher τ := { s with queue := [], isShutdown := true }

/-- The condition of the loop of `processTasks`. -/
def check (s : TaskDispatcher τ) (i : Nat) : TaskDispatcher τ :=
  s.setThread i (if s.isShutdown then .ended else .popping)

/-- `TaskQueue::pop`, which waits while there is neither a task nor a shutdown. -/
def pop (s : TaskDispatcher τ) (i : Nat) : Option (TaskDispatcher τ) :=
  match s.queue with
  | [] => if s.isShutdown then some (s.setThread i .checking) else none
  | task :: queue => some
      { s.setThread i (.running task) with
        queue := queue
        started := s.started ++ [task]
        startedLate := if s.isShutdown then s.startedLate ++ [task] else s.startedLate }

def finish (s : TaskDispatcher τ) (i : Nat) (task : τ) : TaskDispatcher τ :=
  { s.setThread i .checking with finished := s.finished ++ [task] }

def step (s : TaskDispatcher τ) : Step τ → Option (TaskDispatcher τ)
  | .submitTask task => some (s.push task)
  | .shutdown => some s.shutdown
  | .check i =>
    match s.taskThreads[i]? with
    | some .checking => some (s.check i)
    | _ => none
  | .pop i =>
    match s.taskThreads[i]? with
    | some .popping => s.pop i
    | _ => none
  | .finish i =>
    match s.taskThreads[i]? with
    | some (.running task) => some (s.finish i task)
    | _ => none

/-- The thread that a step is of. -/
def ofThread : Step τ → Option Nat
  | .submitTask _ => none
  | .shutdown => none
  | .check i => some i
  | .pop i => some i
  | .finish i => some i

/-- What a step can be, and the thread that it is of. -/
inductive Move (s : TaskDispatcher τ) : Option Nat → TaskDispatcher τ → Prop
  | push (task : τ) : Move s none (s.push task)
  | shutdown : Move s none s.shutdown
  | goOn {i : Nat} (hi : s.taskThreads[i]? = some .checking) (hs : s.isShutdown = false) :
    Move s (some i) (s.setThread i .popping)
  | leave {i : Nat} (hi : s.taskThreads[i]? = some .checking) (hs : s.isShutdown = true) :
    Move s (some i) (s.setThread i .ended)
  | nothing {i : Nat} (hi : s.taskThreads[i]? = some .popping) (hq : s.queue = [])
    (hs : s.isShutdown = true) : Move s (some i) (s.setThread i .checking)
  | start {i : Nat} {task : τ} {queue : List τ} (hi : s.taskThreads[i]? = some .popping)
    (hq : s.queue = task :: queue) :
    Move s (some i) { s.setThread i (.running task) with
      queue := queue
      started := s.started ++ [task]
      startedLate := if s.isShutdown then s.startedLate ++ [task] else s.startedLate }
  | finish {i : Nat} {task : τ} (hi : s.taskThreads[i]? = some (.running task)) :
    Move s (some i) (s.finish i task)

theorem move_of_step {s s' : TaskDispatcher τ} {e : Step τ} (h : s.step e = some s') :
    Move s (ofThread e) s' := by
  cases e with
  | submitTask task =>
    cases h
    exact .push task
  | shutdown =>
    cases h
    exact .shutdown
  | check i =>
    rw [step] at h
    split at h
    · rename_i hi
      cases h
      cases hs : s.isShutdown with
      | false =>
        rw [check, hs]
        exact .goOn hi hs
      | true =>
        rw [check, hs]
        exact .leave hi hs
    · cases h
  | pop i =>
    rw [step] at h
    split at h
    · rename_i hi
      rw [pop] at h
      split at h
      · rename_i hq
        split at h
        · rename_i hs
          cases h
          exact .nothing hi hq hs
        · cases h
      · rename_i hq
        cases h
        exact .start hi hq
    · cases h
  | finish i =>
    rw [step] at h
    split at h
    · rename_i hi
      cases h
      exact .finish hi
    · cases h

/-- What is kept by every move is kept by every run. -/
theorem invariant (Inv : TaskDispatcher τ → Prop) {threadCount : Nat}
    (hinit : Inv (initial threadCount)) (hmove : ∀ s k s', Move s k s' → Inv s → Inv s')
    {s : TaskDispatcher τ} (h : Runs.Reachable step Runs.anyStep (initial threadCount) s) :
    Inv s :=
  h.invariant hinit fun _ _ _ _ hs hinv => hmove _ _ _ (move_of_step hs) hinv

/-- One element of a list, and the list with another element in its place. -/
theorem exists_rest_of_set {α : Type*} {l : List α} {i : Nat} {a : α} (h : l[i]? = some a) :
    ∃ rest, l.Perm (a :: rest) ∧ ∀ b, (l.set i b).Perm (b :: rest) := by
  obtain ⟨hi, rfl⟩ := List.getElem?_eq_some_iff.mp h
  refine ⟨l.eraseIdx i, (List.getElem_cons_eraseIdx_perm hi).symm, fun b => ?_⟩
  have hb : i < (l.set i b).length := by rwa [List.length_set]
  have hperm := List.getElem_cons_eraseIdx_perm hb
  rw [List.getElem_set_self, List.eraseIdx_set_eq] at hperm
  exact hperm.symm

/-- The task a thread runs. -/
def task : TaskThread τ → Option τ
  | .checking => none
  | .popping => none
  | .running task => some task
  | .ended => none

def runningTasks (s : TaskDispatcher τ) : List τ := s.taskThreads.filterMap task

/-- A thread that runs nothing before and after its step. -/
theorem runningTasks_setThread {s : TaskDispatcher τ} {i : Nat} {t t' : TaskThread τ}
    (h : s.taskThreads[i]? = some t) (ht : task t = none) (ht' : task t' = none) :
    (s.setThread i t').runningTasks.Perm s.runningTasks := by
  obtain ⟨rest, hold, hnew⟩ := exists_rest_of_set h
  have hold' := hold.filterMap task
  have hnew' := (hnew t').filterMap task
  rw [List.filterMap_cons_none ht] at hold'
  rw [List.filterMap_cons_none ht'] at hnew'
  exact hnew'.trans hold'.symm

theorem runningTasks_start {s : TaskDispatcher τ} {i : Nat} {new : τ}
    (h : s.taskThreads[i]? = some .popping) :
    (s.setThread i (.running new)).runningTasks.Perm (new :: s.runningTasks) := by
  obtain ⟨rest, hold, hnew⟩ := exists_rest_of_set h
  have hold' := hold.filterMap task
  have hnew' := (hnew (.running new)).filterMap task
  exact hnew'.trans (hold'.symm.cons new)

theorem runningTasks_finish {s : TaskDispatcher τ} {i : Nat} {done : τ}
    (h : s.taskThreads[i]? = some (.running done)) :
    s.runningTasks.Perm (done :: (s.setThread i .checking).runningTasks) := by
  obtain ⟨rest, hold, hnew⟩ := exists_rest_of_set h
  have hold' := hold.filterMap task
  have hnew' := (hnew .checking).filterMap task
  exact hold'.trans (hnew'.symm.cons done)

/-- What was submitted is started in order, and nothing is lost before a shutdown. -/
structure InOrder (s : TaskDispatcher τ) : Prop where
  sublist : (s.started ++ s.queue).Sublist s.submitted
  all : s.isShutdown = false → s.started ++ s.queue = s.submitted

theorem InOrder.move {s s' : TaskDispatcher τ} {k : Option Nat} (h : InOrder s) (hm : Move s k s') :
    InOrder s' := by
  cases hm with
  | push task =>
    refine ⟨?_, fun hs => ?_⟩
    · have happ := h.sublist.append_right [task]
      rwa [List.append_assoc] at happ
    · have hall := h.all hs
      simp only [push, ← List.append_assoc, hall]
  | shutdown =>
    refine ⟨?_, fun hs => by cases hs⟩
    have hleft := (List.sublist_append_left s.started s.queue).trans h.sublist
    simpa [shutdown] using hleft
  | goOn _ _ => exact ⟨h.sublist, h.all⟩
  | leave _ _ => exact ⟨h.sublist, h.all⟩
  | nothing _ _ _ => exact ⟨h.sublist, h.all⟩
  | @start i task queue _ hq =>
    have hsame : s.started ++ [task] ++ queue = s.started ++ s.queue := by
      rw [hq, List.append_assoc]
      rfl
    refine ⟨?_, fun hs => ?_⟩
    · rw [hsame]
      exact h.sublist
    · rw [hsame]
      exact h.all hs
  | finish _ => exact ⟨h.sublist, h.all⟩

/-- What was started is finished or still runs. -/
def OnceEach (s : TaskDispatcher τ) : Prop := s.started.Perm (s.finished ++ s.runningTasks)

theorem OnceEach.move {s s' : TaskDispatcher τ} {k : Option Nat} (h : OnceEach s) (hm : Move s k s') :
    OnceEach s' := by
  cases hm with
  | push task => exact h
  | shutdown => exact h
  | goOn hi _ => exact h.trans ((runningTasks_setThread hi rfl rfl).symm.append_left _)
  | leave hi _ => exact h.trans ((runningTasks_setThread hi rfl rfl).symm.append_left _)
  | nothing hi _ _ => exact h.trans ((runningTasks_setThread hi rfl rfl).symm.append_left _)
  | @start i new queue hi hq =>
    have hadd : (s.started ++ [new]).Perm (s.finished ++ s.runningTasks ++ [new]) :=
      List.Perm.append_right [new] h
    refine hadd.trans ?_
    rw [List.append_assoc]
    refine List.Perm.append_left s.finished ?_
    exact (List.perm_append_singleton new s.runningTasks).trans (runningTasks_start hi).symm
  | @finish i done hi =>
    have hmoved := (runningTasks_finish hi).append_left s.finished
    refine (h.trans hmoved).trans ?_
    rw [List.append_cons]
    exact List.Perm.refl _

/-- One thread finishes what it started before it starts the next task. -/
def Serial (s : TaskDispatcher τ) : Prop :=
  s.taskThreads.length = 1 → s.started = s.finished ++ s.runningTasks

theorem filterMap_task_singleton (t : TaskThread τ) : [t].filterMap task = (task t).toList := by
  cases t <;> rfl

/-- The only thread, before and after its step. -/
theorem runningTasks_single {s : TaskDispatcher τ} {i : Nat} {t : TaskThread τ}
    (hlen : s.taskThreads.length = 1) (hi : s.taskThreads[i]? = some t) :
    s.runningTasks = (task t).toList ∧ ∀ t', (s.setThread i t').runningTasks = (task t').toList := by
  obtain ⟨u, hu⟩ := List.length_eq_one_iff.mp hlen
  rw [hu] at hi
  cases i with
  | zero =>
    obtain rfl : u = t := Option.some.inj hi
    refine ⟨?_, fun t' => ?_⟩
    · rw [runningTasks, hu, filterMap_task_singleton]
    · rw [runningTasks, setThread, hu, List.set_cons_zero, filterMap_task_singleton]
  | succ i => cases hi

/-- A step of a thread that runs nothing before and after it. -/
theorem Serial.idle {s : TaskDispatcher τ} {i : Nat} {t t' : TaskThread τ} (h : Serial s)
    (hlen : s.taskThreads.length = 1) (hi : s.taskThreads[i]? = some t) (ht : task t = none)
    (ht' : task t' = none) : s.started = s.finished ++ (s.setThread i t').runningTasks := by
  obtain ⟨hold, hnew⟩ := runningTasks_single hlen hi
  rw [hnew t', ht', ← ht, ← hold]
  exact h hlen

theorem Serial.move {s s' : TaskDispatcher τ} {k : Option Nat} (h : Serial s) (hm : Move s k s') :
    Serial s' := by
  intro hlen
  cases hm with
  | push task => exact h hlen
  | shutdown => exact h hlen
  | goOn hi _ =>
    rw [setThread, List.length_set] at hlen
    exact h.idle hlen hi rfl rfl
  | leave hi _ =>
    rw [setThread, List.length_set] at hlen
    exact h.idle hlen hi rfl rfl
  | nothing hi _ _ =>
    rw [setThread, List.length_set] at hlen
    exact h.idle hlen hi rfl rfl
  | @start i new queue hi _ =>
    simp only [setThread, List.length_set] at hlen
    obtain ⟨hold, hnew⟩ := runningTasks_single hlen hi
    have hs := h hlen
    rw [hold] at hs
    have hstarted : s.started ++ [new] = s.finished ++ [new] := by rw [hs]; simp [task]
    exact hstarted.trans (congrArg (s.finished ++ ·) (hnew (.running new)).symm)
  | @finish i done hi =>
    simp only [finish, setThread, List.length_set] at hlen
    obtain ⟨hold, hnew⟩ := runningTasks_single hlen hi
    have hs := h hlen
    rw [hold] at hs
    have hfinished : s.started = s.finished ++ [done] ++ [] := by rw [hs]; simp [task]
    exact hfinished.trans (congrArg (s.finished ++ [done] ++ ·) (hnew .checking).symm)

theorem length_taskThreads {s s' : TaskDispatcher τ} {k : Option Nat} (hm : Move s k s') :
    s'.taskThreads.length = s.taskThreads.length := by
  cases hm with
  | push task => rfl
  | shutdown => rfl
  | goOn _ _ => exact List.length_set
  | leave _ _ => exact List.length_set
  | nothing _ _ _ => exact List.length_set
  | start _ _ => exact List.length_set
  | finish _ => exact List.length_set

theorem filterMap_task_replicate (n : Nat) :
    (List.replicate n (.checking : TaskThread τ)).filterMap task = [] := by
  apply List.filterMap_eq_nil_iff.mpr
  intro t ht
  rw [List.eq_of_mem_replicate ht]
  rfl

theorem length_of_reachable {threadCount : Nat} {s : TaskDispatcher τ}
    (h : Runs.Reachable step Runs.anyStep (initial threadCount) s) :
    s.taskThreads.length = threadCount := by
  refine invariant (fun s => s.taskThreads.length = threadCount) ?_
    (fun _ _ _ hm hinv => (length_taskThreads hm).trans hinv) h
  exact List.length_replicate

/-- In every run of any number of threads, tasks are started in the order of their submission, each
once, and what was started is finished or runs; before a shutdown none is lost, and a single thread
runs one after the other. -/
theorem started_in_order (threadCount : Nat) (s : TaskDispatcher τ)
    (h : Runs.Reachable step Runs.anyStep (initial threadCount) s) :
    (s.started ++ s.queue).Sublist s.submitted ∧
      (s.isShutdown = false → s.started ++ s.queue = s.submitted) ∧
      s.started.Perm (s.finished ++ s.runningTasks) ∧
      (threadCount = 1 → s.started = s.finished ++ s.runningTasks) := by
  have hnone : (initial threadCount : TaskDispatcher τ).runningTasks = [] :=
    filterMap_task_replicate threadCount
  have horder : InOrder s := invariant InOrder ⟨List.Sublist.refl _, fun _ => rfl⟩
    (fun _ _ _ hm hinv => hinv.move hm) h
  have honce : OnceEach s := by
    refine invariant OnceEach ?_ (fun _ _ _ hm hinv => OnceEach.move hinv hm) h
    rw [OnceEach, hnone]
    exact List.Perm.refl _
  have hserial : Serial s := by
    refine invariant Serial (fun _ => ?_) (fun _ _ _ hm hinv => Serial.move hinv hm) h
    rw [hnone]
    rfl
  exact ⟨horder.sublist, horder.all, honce,
    fun hone => hserial ((length_of_reachable h).trans hone)⟩

/-- One task in a pool of two threads. -/
theorem one_task_started :
    ∃ s : TaskDispatcher Nat, ((s.started ++ s.queue).Sublist s.submitted ∧
      (s.isShutdown = false → s.started ++ s.queue = s.submitted) ∧
      s.started.Perm (s.finished ++ s.runningTasks) ∧
      (2 = 1 → s.started = s.finished ++ s.runningTasks)) ∧ s.runningTasks = [7] := by
  obtain ⟨s, hs, hrunning⟩ := Runs.exists_reachable_of_run step Runs.anyStep
    (initial 2 : TaskDispatcher Nat) runningTasks [7] [.check 1, .submitTask 7, .pop 1] rfl
  exact ⟨s, started_in_order 2 s hs, hrunning⟩

/-- The thread may take a task without having seen the shutdown. -/
def unaware : TaskThread τ → Nat
  | .popping => 1
  | .running _ => 0
  | .checking => 0
  | .ended => 0

def unawareCount (s : TaskDispatcher τ) : Nat := (s.taskThreads.map unaware).sum

theorem sum_setThread (f : TaskThread τ → Nat) {s : TaskDispatcher τ} {i : Nat} {t : TaskThread τ}
    (h : s.taskThreads[i]? = some t) (t' : TaskThread τ) :
    ((s.setThread i t').taskThreads.map f).sum + f t = (s.taskThreads.map f).sum + f t' := by
  obtain ⟨rest, hold, hnew⟩ := exists_rest_of_set h
  have hold' := (hold.map f).sum_eq
  have hnew' := ((hnew t').map f).sum_eq
  simp only [List.map_cons, List.sum_cons] at hold' hnew'
  simp only [setThread, hold', hnew']
  omega

/-- Nothing came late yet. -/
def NoneLate (s : TaskDispatcher τ) : Prop :=
  s.isShutdown = false → s.submittedLate = [] ∧ s.startedLate = []

theorem NoneLate.move {s s' : TaskDispatcher τ} {k : Option Nat} (h : NoneLate s) (hm : Move s k s') :
    NoneLate s' := by
  cases hm with
  | push task =>
    intro hs
    have hs' : s.isShutdown = false := hs
    simp only [push, hs']
    exact h hs'
  | shutdown => exact fun hs => by cases hs
  | goOn _ _ => exact h
  | leave _ _ => exact h
  | nothing _ _ _ => exact h
  | start _ _ =>
    intro hs
    have hs' : s.isShutdown = false := hs
    simp only [hs']
    exact h hs'
  | finish _ => exact h

/-- After a shutdown: `before` was started till then, `n` threads may not have seen it, and each
starts one late task at most. -/
structure Late (before : List τ) (n : Nat) (s : TaskDispatcher τ) : Prop where
  isShutdown : s.isShutdown = true
  started : s.started = before ++ s.startedLate
  inOrder : (s.startedLate ++ s.queue).Sublist s.submittedLate
  bound : s.startedLate.length + s.unawareCount ≤ n

theorem Late.move {before : List τ} {n : Nat} {s s' : TaskDispatcher τ} {k : Option Nat}
    (h : Late before n s) (hm : Move s k s') : Late before n s' := by
  have hbound := h.bound
  cases hm with
  | push task =>
    refine ⟨h.isShutdown, h.started, ?_, h.bound⟩
    simp only [push, h.isShutdown, ↓reduceIte, ← List.append_assoc]
    exact h.inOrder.append_right [task]
  | shutdown =>
    refine ⟨rfl, h.started, ?_, h.bound⟩
    have hleft := (List.sublist_append_left s.startedLate s.queue).trans h.inOrder
    simpa [shutdown] using hleft
  | goOn _ hs =>
    rw [h.isShutdown] at hs
    cases hs
  | leave hi _ =>
    refine ⟨h.isShutdown, h.started, h.inOrder, ?_⟩
    have hsum := sum_setThread unaware hi .ended
    have hsame : (s.setThread _ .ended).unawareCount = s.unawareCount := hsum
    rw [hsame]
    exact h.bound
  | @nothing i hi _ _ =>
    refine ⟨h.isShutdown, h.started, h.inOrder, ?_⟩
    have hsum := sum_setThread unaware hi .checking
    have hless : (s.setThread i .checking).unawareCount + 1 = s.unawareCount := hsum
    have hlate : (s.setThread i .checking).startedLate = s.startedLate := rfl
    rw [hlate]
    omega
  | @start i new queue hi hq =>
    have hsum := sum_setThread unaware hi (.running new)
    have hless : (s.setThread i (.running new)).unawareCount + 1 = s.unawareCount := hsum
    refine ⟨h.isShutdown, ?_, ?_, ?_⟩
    · simp only [h.isShutdown, ↓reduceIte, h.started, List.append_assoc]
    · have hsub := h.inOrder
      simp only [h.isShutdown, ↓reduceIte]
      rw [hq] at hsub
      rw [List.append_assoc]
      exact hsub
    · simp only [h.isShutdown, ↓reduceIte, List.length_append, List.length_singleton]
      exact Nat.le_trans (by omega : s.startedLate.length + 1 +
        (s.setThread i (.running new)).unawareCount ≤ _) h.bound
  | @finish i done hi =>
    refine ⟨h.isShutdown, h.started, h.inOrder, ?_⟩
    have hsum := sum_setThread unaware hi .checking
    have hsame : (s.finish i done).unawareCount = s.unawareCount := hsum
    rw [hsame]
    exact h.bound

theorem unawareCount_le (s : TaskDispatcher τ) : s.unawareCount ≤ s.taskThreads.length := by
  have hone : ∀ n ∈ s.taskThreads.map unaware, n ≤ 1 := by
    intro n hn
    obtain ⟨t, -, rfl⟩ := List.mem_map.mp hn
    cases t with
    | checking => exact Nat.zero_le 1
    | popping => exact Nat.le_refl 1
    | running task => exact Nat.zero_le 1
    | ended => exact Nat.zero_le 1
  have hsum := List.sum_le_card_nsmul _ 1 hone
  simpa [unawareCount] using hsum

/-- Whatever comes after a shutdown, tasks that wait then are never started. Of the tasks submitted
later, at most one is started for each thread that was about to pop a task at the shutdown. -/
theorem started_after_shutdown (threadCount : Nat) (r s : TaskDispatcher τ)
    (hr : Runs.Reachable step Runs.anyStep (initial threadCount) r) (hs : r.isShutdown = false)
    (h : Runs.Reachable step Runs.anyStep r.shutdown s) :
    s.started = r.started ++ s.startedLate ∧
      (s.startedLate ++ s.queue).Sublist s.submittedLate ∧
      s.startedLate.length + s.unawareCount ≤ r.unawareCount ∧ r.unawareCount ≤ threadCount := by
  obtain ⟨hsubmitted, hstarted⟩ := invariant NoneLate (fun _ => ⟨rfl, rfl⟩)
    (fun _ _ _ hm hinv => NoneLate.move hinv hm) hr hs
  have hinit : Late r.started r.unawareCount r.shutdown := by
    refine ⟨rfl, ?_, ?_, ?_⟩
    · simp [shutdown, hstarted]
    · simp [shutdown, hstarted]
    · have hsame : r.shutdown.unawareCount = r.unawareCount := rfl
      simp [shutdown, hstarted, unawareCount]
  have hlate : Late r.started r.unawareCount s := h.invariant hinit
    fun _ _ _ _ hstep hinv => hinv.move (move_of_step hstep)
  refine ⟨hlate.started, hlate.inOrder, hlate.bound, ?_⟩
  rw [← length_of_reachable hr]
  exact unawareCount_le r

/-- A thread that is about to pop takes a task submitted after the shutdown. -/
theorem one_started_after_shutdown :
    ∃ r s : TaskDispatcher Nat, (s.started = r.started ++ s.startedLate ∧
      (s.startedLate ++ s.queue).Sublist s.submittedLate ∧
      s.startedLate.length + s.unawareCount ≤ r.unawareCount ∧ r.unawareCount ≤ 1) ∧
      s.startedLate = [8] := by
  have hr : Runs.Reachable step Runs.anyStep (initial 1 : TaskDispatcher Nat)
      ((initial 1).check 0) := Runs.reachable_of_run [.check 0] .start rfl
  obtain ⟨s, hs, hlate⟩ := Runs.exists_reachable_of_run step Runs.anyStep
    (shutdown ((initial 1).check 0)) startedLate [8] [.submitTask 8, .pop 0] rfl
  exact ⟨_, s, started_after_shutdown 1 _ s hr rfl hs, hlate⟩

/-- How many steps a thread has left when the queue is shut down. -/
def weight : TaskThread τ → Nat
  | .popping => 3
  | .running _ => 2
  | .checking => 1
  | .ended => 0

def stepsLeft (s : TaskDispatcher τ) (i : Nat) : Nat := (s.taskThreads[i]?).elim 0 weight

/-- A thread comes nearer to its end, and the others stay where they are. -/
theorem stepsLeft_setThread {s : TaskDispatcher τ} {j : Nat} {t t' : TaskThread τ}
    (h : s.taskThreads[j]? = some t) (hless : weight t' < weight t) (i : Nat) :
    (s.setThread j t').stepsLeft i + (if some j = some i then 1 else 0) ≤ s.stepsLeft i := by
  obtain ⟨hlt, -⟩ := List.getElem?_eq_some_iff.mp h
  unfold stepsLeft setThread
  dsimp only
  by_cases heq : j = i
  · subst heq
    rw [List.getElem?_set_self hlt, h, if_pos rfl]
    exact hless
  · rw [List.getElem?_set_ne heq, if_neg (by simpa using heq)]
    exact Nat.le_refl _

/-- After a shutdown a thread comes nearer to its end with each of its steps. -/
theorem stepsLeft_move {s s' : TaskDispatcher τ} {k : Option Nat} (hs : s.isShutdown = true)
    (hm : Move s k s') (i : Nat) : s'.isShutdown = true ∧
      s'.stepsLeft i + (if k = some i then 1 else 0) ≤ s.stepsLeft i := by
  cases hm with
  | push task => exact ⟨hs, Nat.le_refl _⟩
  | shutdown => exact ⟨rfl, Nat.le_refl _⟩
  | goOn _ hs' =>
    rw [hs] at hs'
    cases hs'
  | leave hj _ =>
    refine ⟨hs, stepsLeft_setThread hj ?_ i⟩
    simp [weight]
  | nothing hj _ _ =>
    refine ⟨hs, stepsLeft_setThread hj ?_ i⟩
    simp [weight]
  | start hj _ =>
    refine ⟨hs, stepsLeft_setThread hj ?_ i⟩
    simp [weight]
  | finish hj =>
    refine ⟨hs, stepsLeft_setThread hj ?_ i⟩
    simp [weight]

theorem stepsLeft_run {s s' : TaskDispatcher τ} {es : List (Step τ)} (hs : s.isShutdown = true)
    (h : Runs.run step Runs.anyStep s es = some s') (i : Nat) :
    s'.isShutdown = true ∧
      s'.stepsLeft i + es.countP (ofThread · = some i) ≤ s.stepsLeft i := by
  induction es generalizing s with
  | nil =>
    cases h
    exact ⟨hs, Nat.le_refl _⟩
  | cons e es ih =>
    rw [Runs.run, if_pos (show Runs.anyStep s e from trivial)] at h
    obtain ⟨t, ht, hrest⟩ := Option.bind_eq_some_iff.mp h
    obtain ⟨ht', hle⟩ := stepsLeft_move hs (move_of_step ht) i
    obtain ⟨hs', hle'⟩ := ih ht' hrest
    refine ⟨hs', ?_⟩
    rw [List.countP_cons]
    by_cases hthread : ofThread e = some i
    · rw [if_pos hthread] at hle
      rw [if_pos (decide_eq_true hthread)]
      omega
    · rw [if_neg hthread] at hle
      rw [if_neg (by simpa using hthread)]
      omega

theorem stepsLeft_le (s : TaskDispatcher τ) (i : Nat) : s.stepsLeft i ≤ 3 := by
  unfold stepsLeft
  cases s.taskThreads[i]? with
  | none => exact Nat.zero_le 3
  | some t =>
    cases t with
    | checking => exact (by omega : 1 ≤ 3)
    | popping => exact Nat.le_refl 3
    | running task => exact (by omega : 2 ≤ 3)
    | ended => exact Nat.zero_le 3

/-- After a shutdown a thread that has not ended is never blocked. -/
theorem exists_step_of_not_ended {s : TaskDispatcher τ} (hs : s.isShutdown = true)
    {t : TaskThread τ} (ht : t ∈ s.taskThreads) (hend : t ≠ .ended) :
    ∃ e s', (ofThread e).isSome ∧ s.step e = some s' := by
  obtain ⟨i, hi⟩ := List.mem_iff_getElem?.mp ht
  cases t with
  | checking => exact ⟨.check i, s.check i, rfl, by rw [step, hi]⟩
  | popping =>
    cases hq : s.queue with
    | nil => exact ⟨.pop i, s.setThread i .checking, rfl, by simp [step, hi, pop, hq, hs]⟩
    | cons task queue => exact ⟨.pop i, _, rfl, by rw [step, hi]; simp only [pop, hq]; rfl⟩
  | running task => exact ⟨.finish i, s.finish i task, rfl, by rw [step, hi]⟩
  | ended => exact absurd rfl hend

/-- After a shutdown all threads end, so that they can be joined: in no run does one take more than
three steps, and as long as one has not ended some thread can take a step. -/
theorem threads_end (r s : TaskDispatcher τ) (es : List (Step τ))
    (h : Runs.run step Runs.anyStep r.shutdown es = some s) :
    (∀ i, es.countP (ofThread · = some i) ≤ 3) ∧
      ((∀ e s', (ofThread e).isSome → s.step e ≠ some s') → ∀ t ∈ s.taskThreads, t = .ended) := by
  constructor
  · intro i
    have hle := (stepsLeft_run rfl h i).2
    have hstart := stepsLeft_le r.shutdown i
    omega
  · intro hstuck t ht
    have hs : s.isShutdown = true := (stepsLeft_run rfl h 0).1
    by_contra hend
    obtain ⟨e, s', he, hstep⟩ := exists_step_of_not_ended hs ht hend
    exact hstuck e s' he hstep

theorem threads_end_two :
    (∀ i, ([.pop 1, .check 0, .check 1] : List (Step Nat)).countP (ofThread · = some i) ≤ 3) ∧
      ((∀ e s', (ofThread e).isSome →
          (⟨[], true, [.ended, .ended], [], [], [], [], []⟩ : TaskDispatcher Nat).step e ≠
            some s') →
        ∀ t ∈ ([.ended, .ended] : List (TaskThread Nat)), t = .ended) :=
  threads_end ((initial 2).check 1) ⟨[], true, [.ended, .ended], [], [], [], [], []⟩
    [.pop 1, .check 0, .check 1] rfl

end TaskDispatcher

end Tasks

end SatComm
