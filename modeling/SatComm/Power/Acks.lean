import Mathlib.Data.List.Nodup
import Mathlib.Data.List.Perm.Basic
import SatComm.Power.Server

/-!
# The report to the master

The three lists of `PowerManagerServiceImpl` belong to one cycle at a time: the request for a
cycle clears them, and the task that reports them may still be that of an earlier one. They also
take every name as often as it comes. So a report is right along a run in which a cycle begins
only when the report of the one before has been made, and in which the slaves of the cycle that
is under way answer under their own names, and do not answer again or leave after a negative
answer.
-/

namespace SatComm

namespace Power

open Runs

/-- The cycles of the threads in their first wait. -/
def collecting (threads : List SuspendThread) : List Cycle :=
  (threads.filter fun t => ! t.inWindow).map SuspendThread.cycle

namespace PowerManager

/-- The cycles whose report is to come. -/
def outstanding (m : PowerManager) : List Cycle :=
  m.queue.filterMap Task.cycle? ++ collecting m.threads

/-- The name is that of a slave that is to acknowledge the cycles of the machine. -/
def Addressed (m : PowerManager) (machineName : MachineName) (name : String) : Prop :=
  ∃ slave ∈ m.slaves, slave.clientName = name ∧ slave.expected machineName

instance (m : PowerManager) (machineName : MachineName) : DecidablePred (m.Addressed machineName) :=
  fun name => inferInstanceAs
    (Decidable (∃ slave ∈ m.slaves, slave.clientName = name ∧ slave.expected machineName))

/-- The report of the thread with number `n` names each slave it addresses that has not
acknowledged the cycle once, in one of its lists, and no one else. -/
def Reports (m : PowerManager) : Event → Prop
  | .collect n => ∀ t ∈ m.threads[n]?, m.windowOpen = false → ∀ name,
    ((m.report t.cycle).1 ++ (m.report t.cycle).2).count name =
      if m.Addressed t.cycle.machineName name ∧ name ∉ t.cycle.acked then 1 else 0
  | _ => True

/-- A cycle begins when none is under way, slaves register under names of their own, and the ones
that have answered a cycle negatively neither answer again nor leave before its report. -/
def Answers (m : PowerManager) : Event → Prop
  | .initService .slave clientName machName configured =>
    (machine? machName).isSome → configured.isSome → clientName ∉ m.slaves.map ClientInfo.clientName
  | .deregisterFromServer .slave clientName => m.outstanding ≠ [] → clientName ∉ m.nackClients
  | .sendActivityState state machineName configured =>
    state = .suspend ∨ state = .shutdown → state ≠ m.machState machineName →
      configured = .success → m.outstanding = []
  | .sendActivityStateAck clientName ackType =>
    m.windowOpen = false → ∀ cycle ∈ m.outstanding, clientName ∉ m.nackClients ∧
      (ackType.positive = false →
        clientName ∉ m.ackClients ∧ m.Addressed cycle.machineName clientName)
  | _ => True

instance (m : PowerManager) : DecidablePred m.Answers
  | .initService .slave .. => inferInstanceAs (Decidable (_ → _ → _ ∉ _))
  | .deregisterFromServer .slave _ => inferInstanceAs (Decidable (_ → _ ∉ _))
  | .sendActivityState .. => inferInstanceAs (Decidable (_ ∨ _ → _ → _ → _ = _))
  | .sendActivityStateAck .. => inferInstanceAs (Decidable (_ → ∀ cycle ∈ m.outstanding, _ ∧ (_ → _)))
  | .initService .master .. | .deregisterFromServer .master _ | .beginTask | .collect _ |
    .timeout _ => inferInstanceAs (Decidable True)

/-- The lists are those of the cycle. -/
structure Tally (m : PowerManager) (cycle : Cycle) : Prop where
  considerAck : m.considerAck
  noack : m.noackClients = []
  acked : ∀ name, name ∈ cycle.acked ↔ name ∈ m.ackClients
  nodup : m.nackClients.Nodup
  nack : ∀ name ∈ m.nackClients, name ∉ m.ackClients ∧ m.Addressed cycle.machineName name

/-- At most one cycle is under way, and the lists are those of this one. -/
structure Tallied (m : PowerManager) : Prop where
  names : (m.slaves.map ClientInfo.clientName).Nodup
  single : m.outstanding.length ≤ 1
  tally : ∀ cycle ∈ m.outstanding, m.Tally cycle

/-! ## The report -/

theorem mem_noAcks {m : PowerManager} {machineName : MachineName} {name : String} :
    name ∈ m.noAcks machineName ↔
      m.Addressed machineName name ∧ name ∉ m.ackClients ∧ name ∉ m.nackClients := by
  simp only [noAcks, Addressed, List.mem_map, List.mem_filter, Bool.and_eq_true, Bool.not_eq_true',
    List.contains_eq_mem, decide_eq_false_iff_not]
  constructor
  · rintro ⟨slave, ⟨hmem, ⟨hack, hnack⟩, hexpected⟩, rfl⟩
    exact ⟨⟨slave, hmem, rfl, hexpected⟩, hack, hnack⟩
  · rintro ⟨⟨slave, hmem, rfl, hexpected⟩, hack, hnack⟩
    exact ⟨slave, ⟨hmem, ⟨hack, hnack⟩, hexpected⟩, rfl⟩

theorem nodup_noAcks {m : PowerManager} (h : (m.slaves.map ClientInfo.clientName).Nodup)
    (machineName : MachineName) : (m.noAcks machineName).Nodup :=
  h.sublist (List.filter_sublist.map _)

theorem Tally.count_report {m : PowerManager} {cycle : Cycle} (h : m.Tally cycle)
    (hnames : (m.slaves.map ClientInfo.clientName).Nodup) (name : String) :
    ((m.report cycle).1 ++ (m.report cycle).2).count name =
      if m.Addressed cycle.machineName name ∧ name ∉ cycle.acked then 1 else 0 := by
  have hnodup : (m.nackClients ++ m.noAcks cycle.machineName).Nodup := by
    refine h.nodup.append (nodup_noAcks hnames _) ?_
    intro name hnack hno
    exact (mem_noAcks.mp hno).2.2 hnack
  have hmem : name ∈ m.nackClients ++ m.noAcks cycle.machineName ↔
      m.Addressed cycle.machineName name ∧ name ∉ cycle.acked := by
    rw [List.mem_append, mem_noAcks, h.acked]
    constructor
    · rintro (hnack | ⟨haddressed, hack, -⟩)
      · exact ⟨(h.nack name hnack).2, (h.nack name hnack).1⟩
      · exact ⟨haddressed, hack⟩
    · rintro ⟨haddressed, hack⟩
      by_cases hnack : name ∈ m.nackClients
      · exact .inl hnack
      · exact .inr ⟨haddressed, hack, hnack⟩
  simp only [report, h.noack, List.nil_append]
  rw [hnodup.count]
  exact if_congr hmem rfl rfl

theorem Tallied.reports {m : PowerManager} (h : m.Tallied) (e : Event) : m.Reports e := by
  cases e with
  | collect n =>
    intro t ht hopen
    have hmem : t ∈ m.threads := List.mem_of_getElem? ht
    have hwindow : t.inWindow = false := by simpa using List.any_eq_false.mp hopen t hmem
    refine (h.tally t.cycle (List.mem_append_right _ ?_)).count_report h.names
    exact List.mem_map_of_mem (List.mem_filter.mpr ⟨hmem, by rw [hwindow]; rfl⟩)
  | initService | deregisterFromServer | sendActivityState | sendActivityStateAck | beginTask
  | timeout => trivial

/-! ## The steps -/

theorem tallied_of_nil {m : PowerManager} (hnames : (m.slaves.map ClientInfo.clientName).Nodup)
    (h : m.outstanding = []) : m.Tallied := by
  refine ⟨hnames, by rw [h]; exact Nat.zero_le 1, ?_⟩
  rw [h]
  nofun

theorem collecting_map {f : SuspendThread → SuspendThread} {g : Cycle → Cycle}
    (hcycle : ∀ t, (f t).cycle = g t.cycle) (hwindow : ∀ t, (f t).inWindow = t.inWindow)
    (threads : List SuspendThread) : collecting (threads.map f) = (collecting threads).map g := by
  have hfilter : ((fun t : SuspendThread => ! t.inWindow) ∘ f) = fun t => ! t.inWindow :=
    funext fun t => congrArg not (hwindow t)
  rw [collecting, collecting, List.filter_map, hfilter, List.map_map, List.map_map]
  exact congrArg (List.map · _) (funext hcycle)

theorem collecting_map_eq {f : SuspendThread → SuspendThread} (hcycle : ∀ t, (f t).cycle = t.cycle)
    (hwindow : ∀ t, (f t).inWindow = t.inWindow) (threads : List SuspendThread) :
    collecting (threads.map f) = collecting threads := by
  rw [collecting_map hcycle hwindow (g := id), List.map_id]

theorem collecting_perm {threads threads' : List SuspendThread} (h : threads.Perm threads') :
    (collecting threads).Perm (collecting threads') := (h.filter _).map _

theorem Tally.of_eq {m m' : PowerManager} {cycle : Cycle} (h : m.Tally cycle)
    (hconsider : m'.considerAck = m.considerAck) (hnoack : m'.noackClients = m.noackClients)
    (hack : m'.ackClients = m.ackClients) (hnack : m'.nackClients = m.nackClients)
    (hslaves : ∀ name ∈ m.nackClients, m.Addressed cycle.machineName name →
      m'.Addressed cycle.machineName name) : m'.Tally cycle where
  considerAck := hconsider ▸ h.considerAck
  noack := hnoack ▸ h.noack
  acked := hack ▸ h.acked
  nodup := hnack ▸ h.nodup
  nack := by
    rw [hack, hnack]
    exact fun name hmem => ⟨(h.nack name hmem).1, hslaves name hmem (h.nack name hmem).2⟩

/-- Cycles may end, and those that are under way may go from the queue to a thread. -/
theorem Tallied.of_subperm {m m' : PowerManager} (h : m.Tallied)
    (hnames : (m'.slaves.map ClientInfo.clientName).Nodup)
    (houtstanding : m'.outstanding.Subperm m.outstanding)
    (htally : ∀ cycle ∈ m.outstanding, m.Tally cycle → m'.Tally cycle) : m'.Tallied where
  names := hnames
  single := Nat.le_trans houtstanding.length_le h.single
  tally := fun cycle hmem =>
    htally cycle (houtstanding.subset hmem) (h.tally cycle (houtstanding.subset hmem))

theorem Tallied.of_same {m m' : PowerManager} (h : m.Tallied) (hslaves : m'.slaves = m.slaves)
    (houtstanding : m'.outstanding.Subperm m.outstanding)
    (hconsider : m'.considerAck = m.considerAck) (hnoack : m'.noackClients = m.noackClients)
    (hack : m'.ackClients = m.ackClients) (hnack : m'.nackClients = m.nackClients) :
    m'.Tallied := by
  refine h.of_subperm (hslaves ▸ h.names) houtstanding ?_
  intro cycle _ ht
  refine ht.of_eq hconsider hnoack hack hnack ?_
  rintro name - ⟨slave, hmem, hslave⟩
  exact ⟨slave, hslaves ▸ hmem, hslave⟩

theorem Tallied.renewQueue {m : PowerManager} (h : m.Tallied) (status : ServiceStatus) :
    (m.renewQueue status).Tallied := by
  unfold PowerManager.renewQueue
  split
  · refine h.of_same rfl ?_ rfl rfl rfl rfl
    apply List.Sublist.subperm
    unfold outstanding
    dsimp only
    rw [collecting_map_eq (f := SuspendThread.detach) (fun _ => rfl) (fun _ => rfl)]
    exact List.sublist_append_right _ _
  · exact h

theorem Tallied.initService {m : PowerManager} (h : m.Tallied) {clientType : ClientType}
    {clientName machName : String} {configured : Option ServiceStatus}
    (hanswers : m.Answers (.initService clientType clientName machName configured)) :
    (m.initService clientType clientName machName configured).Tallied := by
  unfold PowerManager.initService
  split
  · rename_i machineName status hmachine
    cases clientType with
    | master =>
      dsimp only
      split
      · apply renewQueue
        exact h.of_same rfl (List.Subperm.refl _) rfl rfl rfl rfl
      · exact h
    | slave =>
      have hfresh : clientName ∉ m.slaves.map ClientInfo.clientName :=
        hanswers (by rw [hmachine]; rfl) rfl
      apply renewQueue
      refine h.of_subperm ?_ (List.Subperm.refl _) ?_
      · rw [List.map_append, List.map_singleton, ← List.concat_eq_append]
        exact h.names.concat hfresh
      · intro cycle _ ht
        refine ht.of_eq rfl rfl rfl rfl ?_
        rintro name - ⟨slave, hmem, hname, hexpected⟩
        exact ⟨slave, List.mem_append_left _ hmem, hname, hexpected⟩
  · exact h

theorem Tallied.deregisterFromServer {m : PowerManager} (h : m.Tallied) {clientType : ClientType}
    {clientName : String} (hanswers : m.Answers (.deregisterFromServer clientType clientName)) :
    (m.deregisterFromServer clientType clientName).Tallied := by
  cases clientType with
  | master => exact h.of_same rfl (List.Subperm.refl _) rfl rfl rfl rfl
  | slave =>
    refine h.of_subperm (h.names.sublist (List.eraseP_sublist.map _)) (List.Subperm.refl _) ?_
    intro cycle hmem ht
    refine ht.of_eq rfl rfl rfl rfl ?_
    rintro name hnack ⟨slave, hslave, rfl, hexpected⟩
    refine ⟨slave, ?_, rfl, hexpected⟩
    apply (List.mem_eraseP_of_neg ?_).mpr hslave
    have hstays := hanswers (List.ne_nil_of_mem hmem)
    exact fun heq => hstays (beq_iff_eq.mp heq ▸ hnack)

theorem Tallied.sendActivityState {m : PowerManager} (h : m.Tallied) {state : TcuActivityState}
    {machineName : MachineName} {configured : ErrorCode}
    (hanswers : m.Answers (.sendActivityState state machineName configured)) :
    (m.sendActivityState state machineName configured).1.Tallied := by
  have hresume : ∀ m' : PowerManager, m'.Tallied → (m'.doResume machineName).Tallied := by
    intro m' h'
    cases machineName <;> exact h'.of_same rfl (List.Subperm.refl _) rfl rfl rfl rfl
  unfold PowerManager.sendActivityState
  split_ifs with hunknown hmach hresumes hlocal hwithin hconfigured hlowers
  · exact h
  · exact hresume m h
  · exact hresume _ (h.of_same rfl (List.Subperm.refl _) rfl rfl rfl rfl)
  · exact h
  · exact h
  · have hnone : m.outstanding = [] := by
      apply hanswers ?_ hmach hconfigured
      cases state with
      | resume => exact absurd rfl hlowers
      | suspend => exact .inl rfl
      | shutdown => exact .inr rfl
      | unknown => exact absurd rfl hunknown
    obtain ⟨hqueue, hthreads⟩ := List.append_eq_nil_iff.mp hnone
    have hbegun : (m.beginCycle state machineName).outstanding = [⟨state, machineName, []⟩] := by
      unfold outstanding PowerManager.beginCycle
      rw [List.filterMap_append, hqueue, hthreads]
      rfl
    refine ⟨h.names, by rw [hbegun]; exact Nat.le_refl 1, ?_⟩
    rw [hbegun]
    intro cycle hmem
    rw [List.mem_singleton.mp hmem]
    exact ⟨rfl, rfl, fun _ => Iff.rfl, List.nodup_nil, nofun⟩
  · refine h.of_same rfl ?_ rfl rfl rfl rfl
    unfold outstanding
    dsimp only
    rw [List.filterMap_append, List.filterMap_cons_none rfl, List.filterMap_nil, List.append_nil]
  · exact h

theorem outstanding_addAck (m : PowerManager) (clientName : String) (ackType : AckType) :
    (m.addAck clientName ackType).outstanding = m.outstanding := by
  unfold addAck
  split_ifs <;> rfl

theorem outstanding_noteAck (m : PowerManager) (clientName : String) {ackType : AckType}
    (h : ackType.positive) : (m.noteAck clientName ackType).outstanding =
      m.outstanding.map (Cycle.acknowledge clientName) := by
  have htask : (Task.cycle? ∘ Task.acknowledge clientName) =
      fun task => (task.cycle?).map (Cycle.acknowledge clientName) := by
    funext task
    cases task <;> rfl
  unfold noteAck outstanding
  rw [if_pos h, List.map_append, List.filterMap_map, htask, List.map_filterMap]
  congr 1
  exact collecting_map (f := SuspendThread.acknowledge clientName) (fun _ => rfl) (fun _ => rfl) _

theorem Tally.acknowledge {m : PowerManager} {cycle : Cycle} (h : m.Tally cycle)
    {clientName : String} {ackType : AckType} (hpositive : ackType.positive)
    (hanswers : clientName ∉ m.nackClients) :
    ((m.addAck clientName ackType).noteAck clientName ackType).Tally
      (cycle.acknowledge clientName) := by
  unfold addAck noteAck
  rw [if_pos h.considerAck, if_pos hpositive, if_pos hpositive]
  refine ⟨h.considerAck, h.noack, ?_, h.nodup, ?_⟩
  · intro name
    show name ∈ clientName :: cycle.acked ↔ name ∈ m.ackClients ++ [clientName]
    rw [List.mem_cons, List.mem_append, List.mem_singleton, h.acked]
    exact or_comm
  · intro name hnack
    refine ⟨?_, (h.nack name hnack).2⟩
    rw [List.mem_append, List.mem_singleton]
    rintro (hack | rfl)
    · exact (h.nack name hnack).1 hack
    · exact hanswers hnack

theorem Tally.refuse {m : PowerManager} {cycle : Cycle} (h : m.Tally cycle)
    {clientName : String} {ackType : AckType} (hnegative : ackType.positive = false)
    (hfresh : clientName ∉ m.nackClients) (hack : clientName ∉ m.ackClients)
    (haddressed : m.Addressed cycle.machineName clientName) :
    ((m.addAck clientName ackType).noteAck clientName ackType).Tally cycle := by
  unfold addAck noteAck
  rw [if_pos h.considerAck, if_neg (by rw [hnegative]; nofun), if_neg (by rw [hnegative]; nofun)]
  refine ⟨h.considerAck, h.noack, h.acked, ?_, ?_⟩
  · rw [← List.concat_eq_append]
    exact h.nodup.concat hfresh
  · intro name hmem
    rcases List.mem_append.mp hmem with hmem | hmem
    · exact h.nack name hmem
    · rw [List.mem_singleton.mp hmem]
      exact ⟨hack, haddressed⟩

/-- The answer goes to the list of the cycle that is under way. -/
theorem Tallied.sendActivityStateAck {m : PowerManager} (h : m.Tallied) {clientName : String}
    {ackType : AckType} (hanswers : m.Answers (.sendActivityStateAck clientName ackType)) :
    (m.sendActivityStateAck clientName ackType).Tallied := by
  have hslaves : ((m.addAck clientName ackType).noteAck clientName ackType).slaves = m.slaves := by
    unfold noteAck addAck
    split_ifs <;> rfl
  unfold PowerManager.sendActivityStateAck
  split
  · exact h
  · rename_i hopen
    have hanswers := hanswers (by simpa using hopen)
    cases hpositive : ackType.positive with
    | true =>
      have hnote := outstanding_noteAck (m.addAck clientName ackType) clientName hpositive
      rw [outstanding_addAck] at hnote
      refine ⟨hslaves ▸ h.names, by rw [hnote, List.length_map]; exact h.single, ?_⟩
      rw [hnote]
      intro cycle hmem
      obtain ⟨cycle, hcycle, rfl⟩ := List.mem_map.mp hmem
      exact (h.tally cycle hcycle).acknowledge hpositive (hanswers cycle hcycle).1
    | false =>
      have hnote : ((m.addAck clientName ackType).noteAck clientName ackType).outstanding =
          m.outstanding := by
        rw [noteAck, if_neg (by rw [hpositive]; nofun), outstanding_addAck]
      refine ⟨hslaves ▸ h.names, hnote ▸ h.single, ?_⟩
      rw [hnote]
      intro cycle hcycle
      obtain ⟨hfresh, hrefuses⟩ := hanswers cycle hcycle
      obtain ⟨hack, haddressed⟩ := hrefuses hpositive
      exact (h.tally cycle hcycle).refuse hpositive hfresh hack haddressed

theorem Tallied.beginTask {m : PowerManager} (h : m.Tallied) : m.beginTask.Tallied := by
  unfold PowerManager.beginTask
  split
  · exact h
  · split
    · exact h
    · rename_i cycle tasks hqueue
      have hcycle : (Task.initiateSuspend cycle).cycle? = some cycle := rfl
      refine h.of_same rfl (List.Perm.subperm ?_) rfl rfl rfl rfl
      unfold outstanding
      dsimp only
      rw [hqueue, List.filterMap_cons_some hcycle, collecting, List.filter_append, List.map_append,
        ← List.append_assoc]
      exact List.perm_append_singleton cycle _
    · rename_i machineName tasks hqueue
      have hrest : Tallied { m with queue := tasks } := by
        refine h.of_same rfl ?_ rfl rfl rfl rfl
        unfold outstanding
        rw [hqueue, List.filterMap_cons_none rfl]
      cases machineName <;> exact hrest.of_same rfl (List.Subperm.refl _) rfl rfl rfl rfl

/-- A thread that reports is no longer in its first wait. -/
theorem Tallied.collect {m : PowerManager} (h : m.Tallied) (n : Nat) : (m.collect n).Tallied := by
  unfold PowerManager.collect
  split
  · rename_i t ht
    split
    · exact h
    · rename_i hopen
      obtain ⟨hlt, rfl⟩ := List.getElem?_eq_some_iff.mp ht
      have hwindow : m.threads[n].inWindow = false := by
        have hopen : m.windowOpen = false := by simpa using hopen
        simpa using List.any_eq_false.mp hopen _ (List.getElem_mem hlt)
      have hperm : m.outstanding.Perm (m.threads[n].cycle ::
          (m.queue.filterMap Task.cycle? ++ collecting (m.threads.eraseIdx n))) := by
        have hthreads := collecting_perm (List.getElem_cons_eraseIdx_perm hlt)
        rw [collecting, List.filter_cons, hwindow] at hthreads
        exact (hthreads.symm.append_left _).trans List.perm_middle
      have hrest : m.queue.filterMap Task.cycle? ++ collecting (m.threads.eraseIdx n) = [] := by
        have hlength := hperm.length_eq
        have hsingle := h.single
        rw [List.length_cons] at hlength
        exact List.eq_nil_of_length_eq_zero (by omega)
      dsimp only
      split
      · refine tallied_of_nil h.names ?_
        unfold outstanding
        dsimp only
        obtain ⟨hqueue, herase⟩ := List.append_eq_nil_iff.mp hrest
        rw [hqueue, List.nil_append]
        have hset := collecting_perm (List.set_perm_cons_eraseIdx hlt
          { m.threads[n] with inWindow := true })
        exact (hset.trans (.of_eq herase)).eq_nil
      · unfold assign
        split <;> exact tallied_of_nil h.names hrest
  · exact h

theorem Tallied.timeout {m : PowerManager} (h : m.Tallied) (n : Nat) : (m.timeout n).Tallied := by
  unfold PowerManager.timeout
  split
  · rename_i t ht
    split
    · rename_i hwindow
      obtain ⟨hlt, rfl⟩ := List.getElem?_eq_some_iff.mp ht
      have hperm : (collecting (m.threads.eraseIdx n)).Perm (collecting m.threads) := by
        have hthreads := collecting_perm (List.getElem_cons_eraseIdx_perm hlt)
        rw [collecting, List.filter_cons, hwindow] at hthreads
        exact hthreads
      have houtstanding := (hperm.append_left (m.queue.filterMap Task.cycle?)).subperm
      dsimp only
      split
      · exact h.of_same rfl houtstanding rfl rfl rfl rfl
      · unfold assign
        split <;> exact h.of_same rfl houtstanding rfl rfl rfl rfl
    · exact h
  · exact h

theorem Tallied.step {m : PowerManager} (h : m.Tallied) {e : Event} (hanswers : m.Answers e) :
    (m.step e).Tallied := by
  cases e with
  | initService clientType clientName machName configured => exact h.initService hanswers
  | deregisterFromServer clientType clientName => exact h.deregisterFromServer hanswers
  | sendActivityState state machineName configured =>
    have hsent := h.sendActivityState hanswers
    unfold PowerManager.step
    dsimp only
    split
    · refine hsent.of_same rfl ?_ rfl rfl rfl rfl
      unfold outstanding
      dsimp only
      rw [collecting_map_eq (f := SuspendThread.resume) (fun _ => rfl) (fun _ => rfl)]
    · exact hsent
  | sendActivityStateAck clientName ackType => exact h.sendActivityStateAck hanswers
  | beginTask => exact h.beginTask
  | collect n => exact h.collect n
  | timeout n => exact h.timeout n

theorem tallied_new : new.Tallied := tallied_of_nil List.nodup_nil rfl

/-- Every report names the slaves that have not acknowledged the cycle, each once, in every run in
which the cycles do not overlap and the slaves answer as `Answers` says. -/
theorem reports_of_answers (es : List Event) (h : Along step Answers new es) :
    Along step Reports new es :=
  h.of_invariant Tallied (fun _ _ hm hanswers => hm.step hanswers) (fun _ e hm _ => hm.reports e)
    tallied_new

/-- One slave acknowledges, one refuses and one does not answer. -/
theorem reports_of_answers_three :
    Along step Reports new
      [.initService .slave "a" "LOCAL_MACHINE" (some .available),
        .initService .slave "b" "LOCAL_MACHINE" (some .available),
        .initService .slave "c" "ALL_MACHINES" (some .available),
        .sendActivityState .suspend .machAll .success, .sendActivityStateAck "a" .ackSuspend,
        .sendActivityStateAck "b" .nackSuspend, .beginTask, .collect 0] :=
  reports_of_answers _ (by decide)

/-- The request to shut down clears the acknowledgement of the suspend that is under way, whose
report then names the slave that has acknowledged it. -/
theorem exists_not_reports :
    ¬ Along step Reports new
      [.initService .slave "slave" "LOCAL_MACHINE" (some .available),
        .sendActivityState .suspend .machLocal .success, .beginTask,
        .sendActivityStateAck "slave" .ackSuspend,
        .sendActivityState .shutdown .machLocal .success, .collect 0] := by
  rintro ⟨-, -, -, -, -, hreport, -⟩
  have := hreport _ rfl rfl "slave"
  revert this
  decide

end PowerManager

end Power

end SatComm
