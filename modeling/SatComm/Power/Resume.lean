import Mathlib.Data.List.Perm.Basic
import SatComm.Power.Server

/-!
# RESUME

A RESUME that finds the state of its machine to be RESUME already halts the suspend that waits for
it. In every other case it is answered with success as well, but is carried out at once or by the
queue, and `resumeReceivedWithinTimeout_` is not set: the suspend goes on. So a RESUME that comes
during a second wait is sure to halt the suspend only where both machine states are RESUME.

The queued RESUME of the local machine leaves `allMachState_` alone. It is the only step after
which all machines are suspended and the local one is not.
-/

namespace SatComm

namespace Power

open Runs

namespace PowerManager

/-! ## A RESUME during the second wait -/

/-- The second wait is over and no machine state is assigned. -/
def halt (m : PowerManager) (n : Nat) : PowerManager :=
  { m with
    withinSuspendTimeout := false
    resumeReceivedWithinTimeout := false
    threads := m.threads.eraseIdx n }

/-- A suspend for which a RESUME was answered with success during its second wait is halted. -/
def Cancels (m : PowerManager) : Event → Prop
  | .timeout n => ∀ t ∈ m.threads[n]?, t.resumed → m.timeout n = m.halt n
  | _ => True

/-- A RESUME during a second wait finds both machine states to be RESUME, or is refused. -/
def FindsResumed (m : PowerManager) : Event → Prop
  | .sendActivityState .resume machineName configured =>
    m.withinSuspendTimeout →
      m.localMachState = .resume ∧ m.machState machineName = .resume ∨
        m.machState machineName ≠ .resume ∧ configured ≠ .success
  | _ => True

instance (m : PowerManager) : DecidablePred m.Cancels
  | .timeout n => inferInstanceAs (Decidable (∀ t ∈ m.threads[n]?, _ → _))
  | .initService .. | .deregisterFromServer .. | .sendActivityState .. |
    .sendActivityStateAck .. | .beginTask | .collect _ => inferInstanceAs (Decidable True)

instance (m : PowerManager) : DecidablePred m.FindsResumed
  | .sendActivityState .resume _ _ => inferInstanceAs (Decidable (_ → _ ∧ _ ∨ _ ∧ _))
  | .sendActivityState .suspend _ _ | .sendActivityState .shutdown _ _ |
    .sendActivityState .unknown _ _ | .initService .. | .deregisterFromServer .. |
    .sendActivityStateAck .. | .beginTask | .collect _ | .timeout _ =>
    inferInstanceAs (Decidable True)

/-- What the second waits depend on of each thread. -/
def waits (m : PowerManager) : List (Bool × Bool) := m.threads.map fun t => (t.inWindow, t.resumed)

/-- At most one thread is in its second wait, and a RESUME answered there has set the flag. -/
structure Waiting (m : PowerManager) : Prop where
  count : m.waits.countP Prod.fst = m.withinSuspendTimeout.toNat
  resumed : ∀ wait ∈ m.waits, wait.2 → wait.1 ∧ m.resumeReceivedWithinTimeout

structure SameWaits (m m' : PowerManager) : Prop where
  waits : m'.waits = m.waits
  within : m'.withinSuspendTimeout = m.withinSuspendTimeout
  received : m'.resumeReceivedWithinTimeout = m.resumeReceivedWithinTimeout

theorem SameWaits.waiting {m m' : PowerManager} (h : SameWaits m m') (hm : m.Waiting) :
    m'.Waiting := by
  constructor
  · rw [h.waits, h.within]
    exact hm.count
  · rw [h.waits, h.received]
    exact hm.resumed

theorem windowOpen_eq (m : PowerManager) : m.windowOpen = m.waits.any Prod.fst := by
  simp [windowOpen, waits, List.any_map, Function.comp_def]

theorem Waiting.windowOpen {m : PowerManager} (h : m.Waiting) :
    m.windowOpen = m.withinSuspendTimeout := by
  have hcount := h.count
  cases hwithin : m.withinSuspendTimeout with
  | false =>
    rw [hwithin] at hcount
    rw [windowOpen_eq, List.any_eq_false]
    exact List.countP_eq_zero.mp hcount
  | true =>
    rw [hwithin] at hcount
    rw [windowOpen_eq, List.any_eq_true]
    exact List.countP_pos_iff.mp (by rw [hcount]; exact Nat.one_pos)

/-- Outside a second wait no thread is resumed. -/
theorem Waiting.not_resumed {m : PowerManager} (h : m.Waiting)
    (hwithin : m.withinSuspendTimeout = false) : ∀ wait ∈ m.waits, wait = (false, false) := by
  rintro ⟨inWindow, resumed⟩ hmem
  have hcount := h.count
  rw [hwithin] at hcount
  have hfst : inWindow = false := by simpa using List.countP_eq_zero.mp hcount _ hmem
  have hsnd : resumed = false := by
    by_contra hne
    have := (h.resumed _ hmem (by simpa using hne)).1
    simp [hfst] at this
  rw [hfst, hsnd]

theorem sameWaits_renewQueue (m : PowerManager) (status : ServiceStatus) :
    SameWaits m (m.renewQueue status) := by
  unfold renewQueue
  split
  · exact ⟨by simp [waits, SuspendThread.detach], rfl, rfl⟩
  · exact ⟨rfl, rfl, rfl⟩

theorem sameWaits_initService (m : PowerManager) (clientType : ClientType)
    (clientName machName : String) (configured : Option ServiceStatus) :
    SameWaits m (m.initService clientType clientName machName configured) := by
  unfold initService
  split
  · cases clientType with
    | master =>
      dsimp only
      split
      · obtain ⟨hwaits, hwithin, hreceived⟩ :=
          sameWaits_renewQueue { m with master := clientName } ‹_›
        exact ⟨hwaits, hwithin, hreceived⟩
      · exact ⟨rfl, rfl, rfl⟩
    | slave =>
      obtain ⟨hwaits, hwithin, hreceived⟩ :=
        sameWaits_renewQueue { m with slaves := m.slaves ++ [⟨clientName, ‹_›⟩] } ‹_›
      exact ⟨hwaits, hwithin, hreceived⟩
  · exact ⟨rfl, rfl, rfl⟩

theorem sameWaits_doResume (m : PowerManager) (machineName : MachineName) :
    SameWaits m (m.doResume machineName) := by
  cases machineName <;> exact ⟨rfl, rfl, rfl⟩

theorem sameWaits_sendActivityStateAck (m : PowerManager) (clientName : String)
    (ackType : AckType) : SameWaits m (m.sendActivityStateAck clientName ackType) := by
  unfold sendActivityStateAck noteAck addAck
  split_ifs <;> exact ⟨by simp [waits, SuspendThread.acknowledge], rfl, rfl⟩

theorem sameWaits_assign (m : PowerManager) (cycle : Cycle) : SameWaits m (m.assign cycle) := by
  unfold assign
  split <;> exact ⟨rfl, rfl, rfl⟩

/-- The thread that begins has neither waited nor been resumed. -/
theorem Waiting.append {m : PowerManager} (h : m.Waiting) (cycle : Cycle) (tasks : List Task) :
    Waiting { m with queue := tasks, threads := m.threads ++ [⟨cycle, true, false, false⟩] } := by
  constructor
  · simpa [waits] using h.count
  · intro wait hmem hresumed
    have hmem : wait ∈ m.waits ++ [(false, false)] := by simpa [waits] using hmem
    rcases List.mem_append.mp hmem with hmem | hmem
    · exact h.resumed wait hmem hresumed
    · rw [List.mem_singleton.mp hmem] at hresumed
      exact nomatch hresumed

theorem Waiting.beginTask {m : PowerManager} (h : m.Waiting) : m.beginTask.Waiting := by
  unfold PowerManager.beginTask
  split
  · exact h
  · split
    · exact h
    · exact h.append _ _
    · exact (sameWaits_doResume _ _).waiting ⟨h.count, h.resumed⟩

/-- Where a thread is done and no other waits, no flag has to be set. -/
theorem waiting_of_forall {m : PowerManager} (hnone : ∀ wait ∈ m.waits, wait = (false, false))
    (hwithin : m.withinSuspendTimeout = false) : m.Waiting := by
  constructor
  · rw [hwithin]
    exact List.countP_eq_zero.mpr fun wait hmem => by rw [hnone wait hmem]; exact Bool.false_ne_true
  · intro wait hmem hresumed
    rw [hnone wait hmem] at hresumed
    exact nomatch hresumed

theorem mem_waits_eraseIdx {m : PowerManager} {n : Nat} {wait : Bool × Bool}
    (h : wait ∈ (m.threads.eraseIdx n).map fun t => (t.inWindow, t.resumed)) : wait ∈ m.waits := by
  obtain ⟨t, hmem, rfl⟩ := List.mem_map.mp h
  exact List.mem_map_of_mem (List.mem_of_mem_eraseIdx hmem)

/-- The thread starts to wait while no other does, or it is done. -/
theorem Waiting.collect {m : PowerManager} (h : m.Waiting) (n : Nat) : (m.collect n).Waiting := by
  unfold PowerManager.collect
  split
  · rename_i t ht
    split
    · exact h
    · rename_i hopen
      have hwithin : m.withinSuspendTimeout = false := by
        rw [← h.windowOpen]
        exact Bool.not_eq_true _ ▸ hopen
      have hnone := h.not_resumed hwithin
      obtain ⟨hlt, rfl⟩ := List.getElem?_eq_some_iff.mp ht
      have ht : (m.threads[n].inWindow, m.threads[n].resumed) = (false, false) :=
        hnone _ (List.mem_map_of_mem (List.getElem_mem hlt))
      have hresumed : m.threads[n].resumed = false := congrArg Prod.snd ht
      dsimp only
      split
      · have hset : (m.threads.set n { m.threads[n] with inWindow := true }).map
            (fun t => (t.inWindow, t.resumed)) = m.waits.set n (true, false) := by
          rw [List.map_set, hresumed]
          rfl
        constructor
        · show List.countP Prod.fst (List.map _ (m.threads.set _ _)) = 1
          rw [hset, List.countP_set (by simpa [waits] using hlt), h.count, hwithin]
          simp [waits, congrArg Prod.fst ht]
        · show ∀ wait ∈ List.map _ (m.threads.set _ _), _
          rw [hset]
          intro wait hmem hwait
          rcases List.mem_or_eq_of_mem_set hmem with hmem | rfl
          · rw [hnone wait hmem] at hwait
            exact nomatch hwait
          · exact nomatch hwait
      · apply (sameWaits_assign _ _).waiting
        exact waiting_of_forall (fun wait hmem => hnone wait (mem_waits_eraseIdx hmem)) hwithin
  · exact h

/-- The thread that waits is the only one, so none is left when its wait is over. -/
theorem Waiting.timeout {m : PowerManager} (h : m.Waiting) (n : Nat) : (m.timeout n).Waiting := by
  unfold PowerManager.timeout
  split
  · rename_i t ht
    split
    · rename_i hinWindow
      obtain ⟨hlt, rfl⟩ := List.getElem?_eq_some_iff.mp ht
      have hrest : ∀ wait ∈ (m.threads.eraseIdx n).map fun t => (t.inWindow, t.resumed),
          wait = (false, false) := by
        have hperm := ((List.getElem_cons_eraseIdx_perm hlt).map
          fun t => (t.inWindow, t.resumed)).countP_eq Prod.fst
        rw [List.map_cons, List.countP_cons, if_pos hinWindow] at hperm
        have hcount := h.count
        have hle := Bool.toNat_le m.withinSuspendTimeout
        rintro ⟨inWindow, resumed⟩ hmem
        have hfst : inWindow = false := by
          by_contra hne
          have := List.countP_pos_iff (p := Prod.fst).mpr ⟨_, hmem, by simpa using hne⟩
          rw [waits] at hcount
          omega
        have hsnd : resumed = false := by
          by_contra hne
          have := (h.resumed _ (mem_waits_eraseIdx hmem) (by simpa using hne)).1
          rw [hfst] at this
          exact nomatch this
        rw [hfst, hsnd]
      dsimp only
      split
      · exact waiting_of_forall hrest rfl
      · exact (sameWaits_assign _ _).waiting (waiting_of_forall hrest rfl)
    · exact h
  · exact h

theorem threads_sendActivityState (m : PowerManager) (state : TcuActivityState)
    (machineName : MachineName) (configured : ErrorCode) :
    (m.sendActivityState state machineName configured).1.threads = m.threads ∧
      (m.sendActivityState state machineName configured).1.withinSuspendTimeout =
        m.withinSuspendTimeout := by
  unfold sendActivityState beginCycle
  cases machineName <;> split_ifs <;> exact ⟨rfl, rfl⟩

/-- A request sets the flag or leaves it as it is. -/
theorem received_sendActivityState {m : PowerManager} (h : m.resumeReceivedWithinTimeout)
    (state : TcuActivityState) (machineName : MachineName) (configured : ErrorCode) :
    (m.sendActivityState state machineName configured).1.resumeReceivedWithinTimeout := by
  unfold sendActivityState beginCycle
  cases machineName <;> split_ifs <;> first | exact h | rfl

/-- The RESUME that finds both machine states to be RESUME sets the flag. -/
theorem received_of_findsResumed {m : PowerManager} {machineName : MachineName}
    {configured : ErrorCode} (hwithin : m.withinSuspendTimeout)
    (hfinds : m.FindsResumed (.sendActivityState .resume machineName configured))
    (hsuccess : (m.sendActivityState .resume machineName configured).2 = .success) :
    (m.sendActivityState .resume machineName configured).1.resumeReceivedWithinTimeout := by
  unfold sendActivityState at hsuccess ⊢
  rw [if_neg (by nofun)] at hsuccess ⊢
  rcases hfinds hwithin with ⟨hlocal, hmach⟩ | ⟨hmach, hconfigured⟩
  · rw [if_pos hmach.symm, if_pos rfl, if_neg (not_not_intro hlocal), if_pos hwithin]
    cases machineName <;> rfl
  · rw [if_neg (Ne.symm hmach), if_neg hconfigured] at hsuccess
    exact absurd hsuccess hconfigured

theorem Waiting.sendActivityState {m : PowerManager} (h : m.Waiting) {state : TcuActivityState}
    {machineName : MachineName} {configured : ErrorCode}
    (hfinds : m.FindsResumed (.sendActivityState state machineName configured)) :
    (m.step (.sendActivityState state machineName configured)).Waiting := by
  obtain ⟨hthreads, hwithin⟩ := threads_sendActivityState m state machineName configured
  have hreceived : m.resumeReceivedWithinTimeout → _ := fun hm =>
    received_sendActivityState hm state machineName configured
  unfold step
  dsimp only
  split
  · rename_i hresume
    obtain ⟨rfl, hsuccess⟩ := hresume
    have hwaits : ((m.sendActivityState .resume machineName configured).1.threads.map
        SuspendThread.resume).map (fun t => (t.inWindow, t.resumed)) =
          m.waits.map fun wait => (wait.1, wait.2 || wait.1) := by
      rw [hthreads, waits, List.map_map, List.map_map]
      rfl
    constructor
    · show List.countP _ (List.map _ (List.map _ _)) = Bool.toNat _
      rw [hwaits, List.countP_map, hwithin]
      exact h.count
    · show ∀ wait ∈ List.map _ (List.map _ _), _
      rw [hwaits]
      intro wait hmem hresumed
      obtain ⟨⟨inWindow, resumed⟩, hwait, rfl⟩ := List.mem_map.mp hmem
      rcases Bool.or_eq_true_iff.mp hresumed with hresumed | hinWindow
      · exact ⟨(h.resumed _ hwait hresumed).1, hreceived (h.resumed _ hwait hresumed).2⟩
      · refine ⟨hinWindow, received_of_findsResumed ?_ hfinds hsuccess⟩
        rw [← h.windowOpen, windowOpen_eq]
        exact List.any_eq_true.mpr ⟨_, hwait, hinWindow⟩
  · constructor
    · rw [waits, hthreads, hwithin]
      exact h.count
    · rw [waits, hthreads]
      exact fun wait hmem hresumed =>
        ⟨(h.resumed wait hmem hresumed).1, hreceived (h.resumed wait hmem hresumed).2⟩

theorem Waiting.step {m : PowerManager} (h : m.Waiting) {e : Event} (hfinds : m.FindsResumed e) :
    (m.step e).Waiting := by
  cases e with
  | initService clientType clientName machName configured =>
    exact (sameWaits_initService m clientType clientName machName configured).waiting h
  | deregisterFromServer clientType clientName => cases clientType <;> exact ⟨h.count, h.resumed⟩
  | sendActivityState state machineName configured => exact h.sendActivityState hfinds
  | sendActivityStateAck clientName ackType =>
    exact (sameWaits_sendActivityStateAck m clientName ackType).waiting h
  | beginTask => exact h.beginTask
  | collect n => exact h.collect n
  | timeout n => exact h.timeout n

theorem Waiting.cancels {m : PowerManager} (h : m.Waiting) (e : Event) : m.Cancels e := by
  cases e with
  | timeout n =>
    intro t ht hresumed
    obtain ⟨hinWindow, hreceived⟩ :=
      h.resumed _ (List.mem_map_of_mem (List.mem_of_getElem? ht)) hresumed
    simp only [PowerManager.timeout, Option.mem_def.mp ht]
    rw [if_pos hinWindow, if_pos hreceived]
    rfl
  | initService | deregisterFromServer | sendActivityState | sendActivityStateAck | beginTask
  | collect => trivial

theorem waiting_new : new.Waiting := ⟨rfl, nofun⟩

/-- A suspend that a RESUME was answered for in its second wait is halted, in every run in which
each such RESUME finds both machine states to be RESUME. -/
theorem resume_halts_suspend (es : List Event) (h : Along step FindsResumed new es) :
    Along step Cancels new es :=
  h.of_invariant Waiting (fun _ _ hm hfinds => hm.step hfinds) (fun _ e hm _ => hm.cancels e)
    waiting_new

/-- A slave that does not answer is resumed before it is suspended. -/
def resumedRun : List Event :=
  [.initService .slave "slave" "LOCAL_MACHINE" (some .available),
    .sendActivityState .suspend .machLocal .success, .beginTask, .collect 0,
    .sendActivityState .resume .machLocal .success, .timeout 0]

theorem resume_halts_suspend_resumedRun :
    Along step FindsResumed new resumedRun ∧ Along step Cancels new resumedRun :=
  ⟨by decide, resume_halts_suspend resumedRun (by decide)⟩

/-- A shutdown of the suspended machine: the RESUME in its second wait is put behind it. -/
theorem exists_resume_not_halting :
    ¬ Along step Cancels new
      [.initService .slave "slave" "LOCAL_MACHINE" (some .available),
        .sendActivityState .suspend .machLocal .success, .beginTask, .collect 0, .timeout 0,
        .sendActivityState .shutdown .machLocal .success, .beginTask, .collect 0,
        .sendActivityState .resume .machLocal .success, .timeout 0] := by
  decide

/-! ## The states of the machines -/

/-- Where all machines are suspended or shut down, the local one is. -/
def Consistent (m : PowerManager) : Prop :=
  m.allMachState = .suspend ∨ m.allMachState = .shutdown → m.localMachState ≠ .resume

instance : DecidablePred Consistent := fun _ => inferInstanceAs (Decidable (_ ∨ _ → _))

/-- The queue resumes the local machine alone only while not all machines are suspended. -/
def ResumesApart (m : PowerManager) : Event → Prop
  | .beginTask =>
    m.busy = false → m.queue.head? = some (.doResume .machLocal) → m.allMachState = .resume
  | _ => True

instance (m : PowerManager) : DecidablePred m.ResumesApart
  | .beginTask => inferInstanceAs (Decidable (_ → _ → _))
  | .initService .. | .deregisterFromServer .. | .sendActivityState .. |
    .sendActivityStateAck .. | .collect _ | .timeout _ => inferInstanceAs (Decidable True)

end PowerManager

/-- What a suspend is asked for. -/
def TcuActivityState.Lowered (state : TcuActivityState) : Prop := state = .suspend ∨ state = .shutdown

namespace TcuActivityState

theorem Lowered.ne_resume {state : TcuActivityState} (h : state.Lowered) : state ≠ .resume := by
  rcases h with rfl | rfl <;> nofun

end TcuActivityState

def Task.Lowers (task : Task) : Prop := ∀ cycle ∈ task.cycle?, cycle.state.Lowered

namespace PowerManager

/-- Machine states are lowered only by suspends and shutdowns. -/
structure Ordered (m : PowerManager) : Prop where
  consistent : m.Consistent
  all : m.allMachState = .resume ∨ m.allMachState.Lowered
  queue : ∀ task ∈ m.queue, task.Lowers
  threads : ∀ t ∈ m.threads, t.cycle.state.Lowered

theorem consistent_doResume_machAll (m : PowerManager) : (m.doResume .machAll).Consistent := by
  rintro (h | h) <;> exact nomatch h

theorem consistent_assign (m : PowerManager) {cycle : Cycle} (h : cycle.state.Lowered) :
    (m.assign cycle).Consistent := by
  intro _
  unfold assign
  split <;> exact h.ne_resume

theorem Ordered.of_eq {m m' : PowerManager} (h : m.Ordered)
    (hlocal : m'.localMachState = m.localMachState) (hall : m'.allMachState = m.allMachState)
    (hqueue : ∀ task ∈ m'.queue, task.Lowers) (hthreads : ∀ t ∈ m'.threads, t.cycle.state.Lowered) :
    m'.Ordered := by
  refine ⟨?_, ?_, hqueue, hthreads⟩
  · rw [Consistent, hlocal, hall]
    exact h.consistent
  · rw [hall]
    exact h.all

theorem Ordered.renewQueue {m : PowerManager} (h : m.Ordered) (status : ServiceStatus) :
    (m.renewQueue status).Ordered := by
  unfold PowerManager.renewQueue
  split
  · refine h.of_eq rfl rfl (fun _ hmem => nomatch hmem) ?_
    intro t hmem
    obtain ⟨t, ht, rfl⟩ := List.mem_map.mp hmem
    exact h.threads t ht
  · exact h

theorem Ordered.initService {m : PowerManager} (h : m.Ordered) (clientType : ClientType)
    (clientName machName : String) (configured : Option ServiceStatus) :
    (m.initService clientType clientName machName configured).Ordered := by
  unfold PowerManager.initService
  split
  · cases clientType with
    | master =>
      dsimp only
      split
      · apply renewQueue
        exact h.of_eq rfl rfl h.queue h.threads
      · exact h
    | slave =>
      apply renewQueue
      exact h.of_eq rfl rfl h.queue h.threads
  · exact h

theorem Ordered.sendActivityStateAck {m : PowerManager} (h : m.Ordered) (clientName : String)
    (ackType : AckType) : (m.sendActivityStateAck clientName ackType).Ordered := by
  have hadd : (m.addAck clientName ackType).Ordered := by
    unfold addAck
    split_ifs <;> exact h.of_eq rfl rfl h.queue h.threads
  unfold PowerManager.sendActivityStateAck noteAck
  split_ifs
  · exact h
  · refine hadd.of_eq rfl rfl ?_ ?_
    · intro task hmem
      obtain ⟨task, htask, rfl⟩ := List.mem_map.mp hmem
      have := hadd.queue task htask
      cases task with
      | initiateSuspend cycle =>
        rintro _ ⟨⟩
        exact this cycle rfl
      | doResume machineName => exact this
    · intro t hmem
      obtain ⟨t, ht, rfl⟩ := List.mem_map.mp hmem
      exact hadd.threads t ht
  · exact hadd

theorem Ordered.doResume {m : PowerManager} (h : m.Ordered) {machineName : MachineName}
    (hmach : machineName = .machLocal → m.allMachState = .resume ∨ m.localMachState = .resume) :
    (m.doResume machineName).Ordered := by
  cases machineName with
  | machLocal =>
    refine ⟨?_, h.all, h.queue, h.threads⟩
    rcases hmach rfl with hall | hlocal
    · rintro (hlow | hlow) <;> exact nomatch hall.symm.trans hlow
    · intro hlow
      exact absurd hlocal (h.consistent hlow)
  | machAll => exact ⟨consistent_doResume_machAll m, .inl rfl, h.queue, h.threads⟩

theorem Ordered.assign {m : PowerManager} (h : m.Ordered) {cycle : Cycle}
    (hcycle : cycle.state.Lowered) : (m.assign cycle).Ordered := by
  refine ⟨consistent_assign m hcycle, ?_, ?_, ?_⟩ <;> unfold PowerManager.assign <;> split
  · exact h.all
  · exact .inr hcycle
  · exact h.queue
  · exact h.queue
  · exact h.threads
  · exact h.threads

theorem Ordered.sendActivityState {m : PowerManager} (h : m.Ordered) (state : TcuActivityState)
    (machineName : MachineName) (configured : ErrorCode) :
    (m.sendActivityState state machineName configured).1.Ordered := by
  unfold PowerManager.sendActivityState
  split_ifs with hunknown hmach hresume hlocal hwithin hconfigured hresume
  · exact h
  · apply h.doResume
    rintro rfl
    exact .inr (hmach.symm.trans hresume)
  · apply Ordered.doResume (m := { m with resumeReceivedWithinTimeout := true })
    · exact h.of_eq rfl rfl h.queue h.threads
    · rintro rfl
      exact .inr (hmach.symm.trans hresume)
  · exact h
  · exact h
  · refine h.of_eq rfl rfl ?_ h.threads
    intro task hmem
    rcases List.mem_append.mp hmem with hmem | hmem
    · exact h.queue task hmem
    · rw [List.mem_singleton.mp hmem]
      rintro _ ⟨⟩
      cases state with
      | resume => exact absurd rfl hresume
      | suspend => exact .inl rfl
      | shutdown => exact .inr rfl
      | unknown => exact absurd rfl hunknown
  · refine h.of_eq rfl rfl ?_ h.threads
    intro task hmem
    rcases List.mem_append.mp hmem with hmem | hmem
    · exact h.queue task hmem
    · rw [List.mem_singleton.mp hmem]
      nofun
  · exact h

theorem Ordered.beginTask {m : PowerManager} (h : m.Ordered) (happly : m.ResumesApart .beginTask) :
    m.beginTask.Ordered := by
  unfold PowerManager.beginTask
  split
  · exact h
  · rename_i hbusy
    split
    · exact h
    · rename_i cycle tasks hqueue
      refine h.of_eq rfl rfl ?_ ?_
      · intro task hmem
        exact h.queue task (by rw [hqueue]; exact List.mem_cons_of_mem _ hmem)
      · intro t hmem
        rcases List.mem_append.mp hmem with hmem | hmem
        · exact h.threads t hmem
        · rw [List.mem_singleton.mp hmem]
          exact h.queue (.initiateSuspend cycle) (by simp [hqueue]) cycle rfl
    · rename_i machineName tasks hqueue
      apply Ordered.doResume (m := { m with queue := tasks })
      · refine h.of_eq rfl rfl ?_ h.threads
        intro task hmem
        exact h.queue task (by rw [hqueue]; exact List.mem_cons_of_mem _ hmem)
      · rintro rfl
        exact .inl (happly (by simpa using hbusy) (by rw [hqueue]; rfl))

theorem Ordered.collect {m : PowerManager} (h : m.Ordered) (n : Nat) : (m.collect n).Ordered := by
  unfold PowerManager.collect
  split
  · rename_i t ht
    have hcycle := h.threads t (List.mem_of_getElem? ht)
    dsimp only
    split_ifs
    · exact h
    · refine h.of_eq rfl rfl h.queue ?_
      intro t' hmem
      rcases List.mem_or_eq_of_mem_set hmem with hmem | rfl
      · exact h.threads t' hmem
      · exact hcycle
    · apply Ordered.assign _ hcycle
      refine h.of_eq rfl rfl h.queue ?_
      exact fun t hmem => h.threads t (List.mem_of_mem_eraseIdx hmem)
  · exact h

theorem Ordered.timeout {m : PowerManager} (h : m.Ordered) (n : Nat) : (m.timeout n).Ordered := by
  unfold PowerManager.timeout
  split
  · rename_i t ht
    have hcycle := h.threads t (List.mem_of_getElem? ht)
    have hthreads : ∀ t ∈ m.threads.eraseIdx n, t.cycle.state.Lowered :=
      fun t hmem => h.threads t (List.mem_of_mem_eraseIdx hmem)
    dsimp only
    split_ifs
    · exact h.of_eq rfl rfl h.queue hthreads
    · apply Ordered.assign _ hcycle
      exact h.of_eq rfl rfl h.queue hthreads
    · exact h
  · exact h

theorem Ordered.step {m : PowerManager} (h : m.Ordered) {e : Event} (happly : m.ResumesApart e) :
    (m.step e).Ordered := by
  cases e with
  | initService clientType clientName machName configured =>
    exact h.initService clientType clientName machName configured
  | deregisterFromServer clientType clientName =>
    cases clientType <;> exact h.of_eq rfl rfl h.queue h.threads
  | sendActivityState state machineName configured =>
    have hsent := h.sendActivityState state machineName configured
    unfold PowerManager.step
    dsimp only
    split
    · refine hsent.of_eq rfl rfl hsent.queue ?_
      intro t hmem
      obtain ⟨t, ht, rfl⟩ := List.mem_map.mp hmem
      exact hsent.threads t ht
    · exact hsent
  | sendActivityStateAck clientName ackType => exact h.sendActivityStateAck clientName ackType
  | beginTask => exact h.beginTask happly
  | collect n => exact h.collect n
  | timeout n => exact h.timeout n

/-- The RESUME of the local machine alone makes the states differ. -/
theorem Ordered.resumesApart {m : PowerManager} (h : m.Ordered) {e : Event}
    (hstep : (m.step e).Consistent) : m.ResumesApart e := by
  cases e with
  | beginTask =>
    intro hbusy hhead
    obtain ⟨tasks, hqueue⟩ := List.head?_eq_some_iff.mp hhead
    have hbegin : m.beginTask = PowerManager.doResume { m with queue := tasks } .machLocal := by
      simp only [PowerManager.beginTask, hbusy, hqueue]
      rfl
    refine h.all.resolve_right fun hlow => ?_
    rw [PowerManager.step, hbegin] at hstep
    exact hstep hlow rfl
  | initService | deregisterFromServer | sendActivityState | sendActivityStateAck | collect
  | timeout => trivial

theorem ordered_new : new.Ordered := ⟨nofun, .inl rfl, nofun, nofun⟩

/-- In a run from the start the local machine is never resumed with all machines suspended or shut
down, if and only if the queue resumes it alone only while not all machines are. -/
theorem consistent_iff (es : List Event) :
    (∀ n, ((es.take n).foldl step new).Consistent) ↔ Along step ResumesApart new es := by
  rw [← along_reached_iff Consistent ordered_new.consistent]
  refine along_congr Ordered ?_ (fun _ _ h happly => h.step happly) es ordered_new
  exact fun m e h => ⟨h.resumesApart, fun happly => (h.step happly).consistent⟩

/-- All machines are suspended, then the local one is resumed. -/
theorem exists_not_consistent :
    ¬ Consistent (([.sendActivityState .suspend .machAll .success, .beginTask, .collect 0,
      .sendActivityState .resume .machLocal .success, .beginTask] : List Event).foldl step new) := by
  decide

end PowerManager

end Power

end SatComm
