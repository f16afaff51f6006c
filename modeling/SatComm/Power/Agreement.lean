import SatComm.Power.Clients
import SatComm.Runs.Basic

/-!
# What the slaves know

In a paced run either nothing is under way, or a cycle waits for the acknowledgements, or it has
been reported and waits for a RESUME. `Phased` says what the slaves have got in each phase. From it
come `noack_iff`, which slaves the master is told to be silent, and `states_agree`, when a slave has
the state of its machine.
-/

namespace SatComm

namespace Power

namespace Network

/-- Slaves have names of their own, and every client is one of them. -/
structure Connected (w : Network) : Prop where
  registered : ∀ c ∈ w.clients, c.info ∈ w.server.slaves
  slaves : (w.server.slaves.map ClientInfo.clientName).Nodup
  clients : (w.clients.map Client.clientName).Nodup
  cached : ∀ c ∈ w.clients, c.currentTcuState = c.state

/-- No cycle is under way. -/
structure Calm (w : Network) : Prop where
  threads : w.server.threads = []
  tasks : w.server.queue = [] ∨ ∃ machineName, w.server.queue = [.doResume machineName]
  window : w.server.withinSuspendTimeout = false
  received : w.server.resumeReceivedWithinTimeout = false
  told : ∀ c ∈ w.clients, c.last = w.server.machState c.machineName

/-- A slave that is asked in the cycle. The update is on its way or has come. -/
structure Asked (m : PowerManager) (state : TcuActivityState) (c : Client) : Prop where
  update : c.updates = [state] ∧ c.state = m.machState c.machineName ∨
    c.updates = [] ∧ c.state = state
  ack : c.hasListeners = false →
    (c.clientName ∈ m.ackClients ↔ c.updates = [] ∧ m.machState c.machineName ≠ state)
  nack : c.hasListeners = false → c.clientName ∉ m.nackClients

/-- A cycle waits for acknowledgements. -/
structure Collecting (w : Network) (state : TcuActivityState) (machineName : MachineName) :
    Prop where
  task : w.server.AtTask state machineName
  considerAck : w.server.considerAck = true
  noack : w.server.noackClients = []
  window : w.server.withinSuspendTimeout = false
  received : w.server.resumeReceivedWithinTimeout = false
  lowered : state = .suspend ∨ state = .shutdown
  news : w.server.machState machineName ≠ state
  asked : ∀ c ∈ w.clients, c.info.expected machineName → Asked w.server state c
  others : ∀ c ∈ w.clients, ¬ c.info.expected machineName →
    c.updates = [] ∧ c.state = w.server.machState c.machineName

/-- A cycle has been reported and waits for a RESUME. -/
structure Reported (w : Network) (state : TcuActivityState) (machineName : MachineName) :
    Prop where
  queue : w.server.queue = []
  thread : ∃ acked, w.server.threads = [⟨⟨state, machineName, acked⟩, true, true, false⟩]
  received : w.server.resumeReceivedWithinTimeout = false
  told : ∀ c ∈ w.clients, c.updates = [] ∧
    c.state = if c.info.expected machineName then state else w.server.machState c.machineName

/-- Where a paced run can be. -/
structure Phased (w : Network) : Prop where
  connected : w.Connected
  phase : w.Calm ∨ ∃ state machineName, w.Collecting state machineName ∨
    w.Reported state machineName

section Clients

variable {l : List Client} {i : Nat} {c d : Client}

/-- Clients with different numbers have different names. -/
theorem clientName_ne {j : Nat} (hnames : (l.map Client.clientName).Nodup) (hi : l[i]? = some c)
    (hj : l[j]? = some d) (hne : j ≠ i) : d.clientName ≠ c.clientName := by
  intro heq
  apply hne
  have hlt : j < (l.map Client.clientName).length := by
    rw [List.length_map]
    exact (List.getElem?_eq_some_iff.mp hj).1
  apply (List.getElem?_inj hlt hnames).mp
  rw [List.getElem?_map, List.getElem?_map, hi, hj, Option.map_some, Option.map_some, heq]

theorem mem_set {a : Client} (hnames : (l.map Client.clientName).Nodup) (hi : l[i]? = some c)
    (hd : d ∈ l.set i a) : d = a ∨ d ∈ l ∧ d.clientName ≠ c.clientName := by
  obtain ⟨j, hj⟩ := List.mem_iff_getElem?.mp hd
  by_cases hji : j = i
  · subst hji
    have hlt : j < l.length := (List.getElem?_eq_some_iff.mp hi).1
    rw [List.getElem?_set_self hlt] at hj
    exact .inl (Option.some.inj hj).symm
  · rw [List.getElem?_set_ne (Ne.symm hji)] at hj
    exact .inr ⟨List.mem_of_getElem? hj, clientName_ne hnames hi hj hji⟩

theorem mem_eraseIdx (hnames : (l.map Client.clientName).Nodup) (hi : l[i]? = some c)
    (hd : d ∈ l.eraseIdx i) : d ∈ l ∧ d.clientName ≠ c.clientName := by
  obtain ⟨j, hji, hj⟩ := List.mem_eraseIdx_iff_getElem?.mp hd
  exact ⟨List.mem_of_getElem? hj, clientName_ne hnames hi hj hji⟩

theorem map_clientName_set {a : Client} (hi : l[i]? = some c)
    (ha : a.clientName = c.clientName) :
    (l.set i a).map Client.clientName = l.map Client.clientName := by
  apply List.ext_getElem?
  intro j
  by_cases hji : j = i
  · subst hji
    have hlt : j < l.length := (List.getElem?_eq_some_iff.mp hi).1
    rw [List.getElem?_map, List.getElem?_set_self hlt, List.getElem?_map, hi, Option.map_some,
      Option.map_some, ha]
  · rw [List.getElem?_map, List.getElem?_set_ne (Ne.symm hji), List.getElem?_map]

end Clients

/-- One client is replaced by one with the same name. -/
theorem Connected.set {w : Network} (h : w.Connected) {i : Nat} {c a : Client}
    (hi : w.clients[i]? = some c) (ha : a.info = c.info) (hcached : a.currentTcuState = a.state)
    {m : PowerManager} (hm : m.slaves = w.server.slaves) :
    Connected ⟨m, w.clients.set i a⟩ where
  registered := by
    intro d hd
    rw [hm]
    rcases mem_set h.clients hi hd with rfl | ⟨hd, -⟩
    · rw [ha]
      exact h.registered c (List.mem_of_getElem? hi)
    · exact h.registered d hd
  slaves := hm ▸ h.slaves
  clients := by
    rw [map_clientName_set hi (congrArg ClientInfo.clientName ha)]
    exact h.clients
  cached := by
    intro d hd
    rcases mem_set h.clients hi hd with rfl | ⟨hd, -⟩
    · exact hcached
    · exact h.cached d hd

theorem Connected.server {w : Network} (h : w.Connected) {m : PowerManager}
    (hm : m.slaves = w.server.slaves) : Connected ⟨m, w.clients⟩ :=
  ⟨hm ▸ h.registered, hm ▸ h.slaves, h.clients, h.cached⟩

theorem Connected.push {w : Network} (h : w.Connected) {m : PowerManager}
    (hm : m.slaves = w.server.slaves) (update : Option (TcuActivityState × MachineName)) :
    Connected ⟨m, Network.push w.clients update⟩ := by
  cases update with
  | none => exact ⟨hm ▸ h.registered, hm ▸ h.slaves, h.clients, h.cached⟩
  | some u =>
    have hname : ∀ c : Client, (c.push u.1 u.2).clientName = c.clientName :=
      fun c => congrArg ClientInfo.clientName (Client.info_push u.1 u.2 c)
    refine ⟨?_, hm ▸ h.slaves, ?_, ?_⟩
    · intro d hd
      obtain ⟨c, hc, rfl⟩ := List.mem_map.mp hd
      rw [Client.info_push, hm]
      exact h.registered c hc
    · have hmap : (Network.push w.clients (some u)).map Client.clientName =
          w.clients.map Client.clientName := by
        rw [Network.push, List.map_map]
        exact List.map_congr_left fun c _ => hname c
      rw [hmap]
      exact h.clients
    · intro d hd
      obtain ⟨c, hc, rfl⟩ := List.mem_map.mp hd
      rw [Client.push]
      split
      · exact h.cached c hc
      · exact h.cached c hc

/-- The last update of the server is what a client has at the end. -/
theorem told_push {clients : List Client} {m m' : PowerManager} {state : TcuActivityState}
    {machineName : MachineName} (h : ∀ c ∈ clients, c.last = m.machState c.machineName)
    (hm : ∀ c : Client, m'.machState c.machineName =
      if c.info.expected machineName then state else m.machState c.machineName) :
    ∀ d ∈ Network.push clients (some (state, machineName)),
      d.last = m'.machState d.machineName := by
  intro d hd
  obtain ⟨c, hc, rfl⟩ := List.mem_map.mp hd
  have hmachine : (c.push state machineName).machineName = c.machineName :=
    congrArg ClientInfo.machineName (Client.info_push state machineName c)
  rw [hmachine, hm c, Client.last_push, h c hc]

/-- Nothing is under way in an idle state. -/
theorem Phased.calm {w : Network} (h : w.Phased) (hidle : w.Idle) : w.Calm := by
  rcases h.phase with hcalm | ⟨state, machineName, hcollecting | hreported⟩
  · exact hcalm
  · exact absurd hidle hcollecting.task.not_idle
  · obtain ⟨acked, hthread⟩ := hreported.thread
    rw [hidle.2] at hthread
    cases hthread

theorem Phased.connect {w : Network} (h : w.Phased) (hidle : w.Idle) {clientName : String}
    (hfresh : clientName ∉ w.server.slaves.map ClientInfo.clientName) (machName : String)
    (configured : Option ServiceStatus) : (w.connect clientName machName configured).Phased := by
  have hcalm := h.calm hidle
  have hconn := h.connected
  rw [Network.connect]
  cases hmachine : machine? machName with
  | none =>
    have hserver : w.server.initService .slave clientName machName configured = w.server := by
      simp [PowerManager.initService, hmachine]
    rw [hserver]
    exact h
  | some machineName =>
    cases configured with
    | none =>
      have hserver : w.server.initService .slave clientName machName none = w.server := by
        simp [PowerManager.initService]
      rw [hserver]
      exact h
    | some status =>
      have hserver : w.server.initService .slave clientName machName (some status) =
          PowerManager.renewQueue { w.server with
            slaves := w.server.slaves ++ [ClientInfo.mk clientName machineName] } status := by
        simp [PowerManager.initService, hmachine]
      have hslaves : ((w.server.slaves ++ [ClientInfo.mk clientName machineName]).map
          ClientInfo.clientName).Nodup := by
        rw [List.map_append]
        apply hconn.slaves.append (List.nodup_singleton _)
        simpa using hfresh
      have hregistered : ∀ c ∈ w.clients,
          c.info ∈ w.server.slaves ++ [ClientInfo.mk clientName machineName] :=
        fun c hc => List.mem_append_left _ (hconn.registered c hc)
      rw [hserver, PowerManager.renewQueue]
      simp only [Option.some.injEq]
      by_cases hstatus : status = .available
      · rw [if_pos hstatus, if_pos hstatus]
        refine ⟨⟨?_, hslaves, ?_, ?_⟩, .inl ⟨?_, .inl rfl, hcalm.window, hcalm.received, ?_⟩⟩
        · intro c hc
          rcases List.mem_append.mp hc with hc | hc
          · exact hregistered c hc
          · rw [List.mem_singleton.mp hc]
            exact List.mem_append_right _ (List.mem_singleton.mpr rfl)
        · rw [List.map_append]
          apply hconn.clients.append (List.nodup_singleton _)
          intro name hname hnew
          obtain ⟨c, hc, rfl⟩ := List.mem_map.mp hname
          have heq : c.clientName = clientName := List.mem_singleton.mp hnew
          apply hfresh
          rw [← heq]
          exact List.mem_map_of_mem (hconn.registered c hc)
        · intro c hc
          rcases List.mem_append.mp hc with hc | hc
          · exact hconn.cached c hc
          · rw [List.mem_singleton.mp hc]
        · simp [hcalm.threads]
        · intro c hc
          rcases List.mem_append.mp hc with hc | hc
          · exact hcalm.told c hc
          · rw [List.mem_singleton.mp hc]
            exact Client.last_nil rfl
      · rw [if_neg hstatus, if_neg hstatus]
        exact ⟨⟨hregistered, hslaves, hconn.clients, hconn.cached⟩,
          .inl ⟨hcalm.threads, hcalm.tasks, hcalm.window, hcalm.received, hcalm.told⟩⟩

theorem Phased.disconnect {w : Network} (h : w.Phased) {i : Nat} {c : Client}
    (hi : w.clients[i]? = some c) :
    Phased ⟨w.server.deregisterFromServer .slave c.clientName, w.clients.eraseIdx i⟩ := by
  have hconn := h.connected
  have hmem : ∀ d ∈ w.clients.eraseIdx i, d ∈ w.clients :=
    fun d hd => (mem_eraseIdx hconn.clients hi hd).1
  refine ⟨⟨?_, ?_, ?_, fun d hd => hconn.cached d (hmem d hd)⟩, ?_⟩
  · intro d hd
    obtain ⟨hd, hne⟩ := mem_eraseIdx hconn.clients hi hd
    apply (List.mem_eraseP_of_neg ?_).mpr (hconn.registered d hd)
    simpa [Client.info] using hne
  · exact hconn.slaves.sublist (List.eraseP_sublist.map _)
  · exact hconn.clients.sublist ((List.eraseIdx_sublist _ _).map _)
  · rcases h.phase with hcalm | ⟨state, machineName, hc | hr⟩
    · exact .inl ⟨hcalm.threads, hcalm.tasks, hcalm.window, hcalm.received,
        fun d hd => hcalm.told d (hmem d hd)⟩
    · refine .inr ⟨state, machineName, .inl ⟨hc.task, hc.considerAck, hc.noack, hc.window,
        hc.received, hc.lowered, hc.news, ?_, fun d hd => hc.others d (hmem d hd)⟩⟩
      intro d hd hexpected
      obtain ⟨hupdate, hack, hnack⟩ := hc.asked d (hmem d hd) hexpected
      exact ⟨hupdate, hack, hnack⟩
    · exact .inr ⟨state, machineName, .inr ⟨hr.queue, hr.thread, hr.received,
        fun d hd => hr.told d (hmem d hd)⟩⟩

theorem Phased.giveUp {w : Network} (h : w.Phased) {clientName : String}
    (hother : clientName ∉ w.clients.map Client.clientName) :
    Phased { w with server := w.server.deregisterFromServer .slave clientName } := by
  have hconn := h.connected
  refine ⟨⟨?_, ?_, hconn.clients, hconn.cached⟩, ?_⟩
  · intro d hd
    apply (List.mem_eraseP_of_neg ?_).mpr (hconn.registered d hd)
    have hne : d.clientName ≠ clientName := fun heq => hother (heq ▸ List.mem_map_of_mem hd)
    simpa [Client.info] using hne
  · exact hconn.slaves.sublist (List.eraseP_sublist.map _)
  · rcases h.phase with hcalm | ⟨state, machineName, hc | hr⟩
    · exact .inl ⟨hcalm.threads, hcalm.tasks, hcalm.window, hcalm.received, hcalm.told⟩
    · refine .inr ⟨state, machineName, .inl ⟨hc.task, hc.considerAck, hc.noack, hc.window,
        hc.received, hc.lowered, hc.news, ?_, hc.others⟩⟩
      intro d hd hexpected
      obtain ⟨hupdate, hack, hnack⟩ := hc.asked d hd hexpected
      exact ⟨hupdate, hack, hnack⟩
    · exact .inr ⟨state, machineName, .inr ⟨hr.queue, hr.thread, hr.received, hr.told⟩⟩

/-- An application is heard, or a listener comes or goes, where the update of no other slave is
touched. -/
theorem Phased.listen {w : Network} (h : w.Phased) (hidle : w.Idle) {i : Nat} {c : Client}
    (hi : w.clients[i]? = some c) (hasListeners : Bool) :
    Phased { w with clients := w.clients.set i { c with hasListeners := hasListeners } } := by
  have hcalm := h.calm hidle
  have hset := h.connected.set (a := { c with hasListeners := hasListeners }) hi rfl
    (h.connected.cached c (List.mem_of_getElem? hi)) rfl
  refine ⟨hset, .inl ⟨hcalm.threads, hcalm.tasks, hcalm.window, hcalm.received, ?_⟩⟩
  intro d hd
  rcases mem_set h.connected.clients hi hd with rfl | ⟨hd, -⟩
  · exact hcalm.told c (List.mem_of_getElem? hi)
  · exact hcalm.told d hd

theorem calm_acknowledge {w : Network} (h : w.Calm) (clientName : String) (ack : Option AckType) :
    (acknowledge w.server clientName ack).threads = [] ∧
      (acknowledge w.server clientName ack).queue = w.server.queue := by
  cases ack with
  | none => exact ⟨h.threads, rfl⟩
  | some ackType =>
    have hqueue : w.server.queue.map (Task.acknowledge clientName) = w.server.queue := by
      rcases h.tasks with hq | ⟨machineName, hq⟩
      · rw [hq]
        rfl
      · rw [hq]
        rfl
    rw [acknowledge, PowerManager.sendActivityStateAck]
    have hadd : (w.server.addAck clientName ackType).threads = [] ∧
        (w.server.addAck clientName ackType).queue = w.server.queue := by
      rw [PowerManager.addAck]
      split
      · split
        · exact ⟨h.threads, rfl⟩
        · exact ⟨h.threads, rfl⟩
      · exact ⟨h.threads, rfl⟩
    split
    · exact ⟨h.threads, rfl⟩
    rw [PowerManager.noteAck]
    split
    · simp [hadd.1, hadd.2, hqueue]
    · exact hadd

/-- An acknowledgement in a state where nothing is under way. -/
theorem Calm.acknowledge {w : Network} (h : w.Calm) (clientName : String) (ack : Option AckType)
    {clients : List Client}
    (htold : ∀ c ∈ clients, c.last = w.server.machState c.machineName) :
    Calm ⟨Network.acknowledge w.server clientName ack, clients⟩ := by
  have hsame := sameStates_acknowledge w.server clientName ack
  obtain ⟨hthreads, hqueue⟩ := calm_acknowledge h clientName ack
  refine ⟨hthreads, ?_, hsame.window.trans h.window, hsame.received.trans h.received, ?_⟩
  · simp only [hqueue]
    exact h.tasks
  · intro c hc
    exact (htold c hc).trans (hsame.machState c.machineName).symm

/-- A client that is not the one that answers keeps its part in the cycle. -/
theorem Asked.acknowledge {m : PowerManager} {state : TcuActivityState} {d : Client}
    (h : Asked m state d) (hwindow : m.windowOpen = false) (hconsider : m.considerAck = true)
    {clientName : String} (hne : d.clientName ≠ clientName) (ack : Option AckType) :
    Asked (Network.acknowledge m clientName ack) state d := by
  have hsame := (sameStates_acknowledge m clientName ack).machState d.machineName
  obtain ⟨hacks, hnacks⟩ := mem_lists_acknowledge hwindow hconsider clientName d.clientName ack
  obtain ⟨hupdate, hack, hnack⟩ := h
  refine ⟨?_, ?_, ?_⟩
  · rw [hsame]
    exact hupdate
  · intro hsilent
    rw [hacks, hsame, hack hsilent]
    simp [hne]
  · intro hsilent hmem
    rcases hnacks.mp hmem with hmem | ⟨heq, -⟩
    · exact hnack hsilent hmem
    · exact hne heq

/-- A cycle goes on when a slave answers or its update comes. -/
theorem Collecting.acknowledge {w : Network} {state : TcuActivityState} {machineName : MachineName}
    (h : w.Collecting state machineName) (clientName : String) (ack : Option AckType)
    {clients : List Client}
    (hasked : ∀ d ∈ clients, d.info.expected machineName →
      Asked (Network.acknowledge w.server clientName ack) state d)
    (hothers : ∀ d ∈ clients, ¬ d.info.expected machineName →
      d.updates = [] ∧ d.state = w.server.machState d.machineName) :
    Collecting ⟨Network.acknowledge w.server clientName ack, clients⟩ state machineName := by
  have hsame := sameStates_acknowledge w.server clientName ack
  refine ⟨atTask_acknowledge h.task clientName ack, hsame.considerAck.trans h.considerAck,
    hsame.noack.trans h.noack, hsame.window.trans h.window, hsame.received.trans h.received,
    h.lowered, ?_, hasked, ?_⟩
  · rw [hsame.machState machineName]
    exact h.news
  · intro d hd hexpected
    rw [hsame.machState d.machineName]
    exact hothers d hd hexpected

/-- The update of the cycle comes to a slave. -/
theorem Asked.deliver {m : PowerManager} {state : TcuActivityState} {c : Client}
    (h : Asked m state c) (hwindow : m.windowOpen = false) (hconsider : m.considerAck = true)
    (hlowered : state = .suspend ∨ state = .shutdown) {s : TcuActivityState}
    {updates : List TcuActivityState} (hupdates : c.updates = s :: updates) :
    let r := { c with updates := updates }.handleTcuStateUpdateEvent s
    Asked (Network.acknowledge m c.clientName r.2) state r.1 := by
  obtain ⟨⟨hcoming, hstate⟩ | ⟨hnone, -⟩, hack, hnack⟩ := h
  · rw [hupdates] at hcoming
    obtain ⟨rfl, rfl⟩ := List.cons.inj hcoming
    have hnotyet : c.hasListeners = false → c.clientName ∉ m.ackClients := by
      intro hsilent hmem
      have hcome := ((hack hsilent).mp hmem).1
      rw [hupdates] at hcome
      cases hcome
    have hreaction := Client.ack_handle { c with updates := [] } s hlowered
    have hsame := sameStates_acknowledge m c.clientName
      ({ c with updates := [] }.handleTcuStateUpdateEvent s).2
    obtain ⟨hacks, hnacks⟩ := mem_lists_acknowledge hwindow hconsider c.clientName c.clientName
      ({ c with updates := [] }.handleTcuStateUpdateEvent s).2
    have hpositive : c.hasListeners = false →
        ({ c with updates := [] }.handleTcuStateUpdateEvent s).2.map AckType.positive =
          if c.state = s then none else some true := by
      intro hsilent
      rw [hreaction hsilent]
      by_cases hsame : c.state = s
      · simp [hsame]
      · rcases hlowered with rfl | rfl
        · simp [hsame, Client.ackType?, AckType.positive]
        · simp [hsame, Client.ackType?, AckType.positive]
    refine ⟨.inr ⟨by simp, by simp⟩, ?_, ?_⟩
    · intro hsilent
      simp only [Client.hasListeners_handle] at hsilent
      simp only [Client.clientName_handle, Client.machineName_handle, Client.updates_handle,
        hsame.machState]
      rw [hacks, hpositive hsilent, ← hstate]
      by_cases hold : c.state = s
      · simp [hold, hnotyet hsilent]
      · simp [hold]
    · intro hsilent
      simp only [Client.hasListeners_handle] at hsilent
      simp only [Client.clientName_handle]
      rw [hnacks, hpositive hsilent]
      have hnone := hnack hsilent
      split <;> simp [hnone]
  · rw [hupdates] at hnone
    cases hnone

theorem Phased.deliver {w : Network} (h : w.Phased) {i : Nat} {c : Client}
    (hi : w.clients[i]? = some c) {s : TcuActivityState} {updates : List TcuActivityState}
    (hupdates : c.updates = s :: updates) : (w.deliver i c s updates).Phased := by
  have hmem := List.mem_of_getElem? hi
  have hcached : c.currentTcuState = c.state := h.connected.cached c hmem
  have hinfo : ({ c with updates := updates }.handleTcuStateUpdateEvent s).1.info = c.info := by
    simp [Client.info]
  have hcurrent := Client.currentTcuState_handle { c with updates := updates } s hcached
  have hset := h.connected.set hi hinfo (hcurrent.trans (Client.state_handle _ s).symm)
    (sameStates_acknowledge w.server c.clientName
      ({ c with updates := updates }.handleTcuStateUpdateEvent s).2).slaves
  refine ⟨hset, ?_⟩
  rcases h.phase with hcalm | ⟨state, machineName, hc | hr⟩
  · left
    apply hcalm.acknowledge
    intro d hd
    rcases mem_set h.connected.clients hi hd with rfl | ⟨hd, -⟩
    · rw [Client.last_handle c hupdates, Client.machineName_handle]
      exact hcalm.told c hmem
    · exact hcalm.told d hd
  · refine .inr ⟨state, machineName, .inl ?_⟩
    apply hc.acknowledge
    · intro d hd hexpected
      rcases mem_set h.connected.clients hi hd with rfl | ⟨hd, hne⟩
      · rw [hinfo] at hexpected
        exact (hc.asked c hmem hexpected).deliver hc.task.windowOpen hc.considerAck hc.lowered
          hupdates
      · exact (hc.asked d hd hexpected).acknowledge hc.task.windowOpen hc.considerAck hne _
    · intro d hd hexpected
      rcases mem_set h.connected.clients hi hd with rfl | ⟨hd, -⟩
      · rw [hinfo] at hexpected
        have hnone := (hc.others c hmem hexpected).1
        rw [hupdates] at hnone
        cases hnone
      · exact hc.others d hd hexpected
  · have hnone := (hr.told c hmem).1
    rw [hupdates] at hnone
    cases hnone

theorem Phased.answer {w : Network} (h : w.Phased) {i : Nat} {c : Client}
    (hi : w.clients[i]? = some c) (hlistens : c.hasListeners = true) (ack : Option AckType) :
    Phased { w with server := Network.acknowledge w.server c.clientName ack } := by
  have hmem := List.mem_of_getElem? hi
  have hsame := sameStates_acknowledge w.server c.clientName ack
  have hconn := h.connected
  have hconn' : Connected { w with server := Network.acknowledge w.server c.clientName ack } :=
    ⟨hsame.slaves.symm ▸ hconn.registered, hsame.slaves.symm ▸ hconn.slaves, hconn.clients,
      hconn.cached⟩
  refine ⟨hconn', ?_⟩
  rcases h.phase with hcalm | ⟨state, machineName, hc | hr⟩
  · exact .inl (hcalm.acknowledge c.clientName ack hcalm.told)
  · refine .inr ⟨state, machineName, .inl (hc.acknowledge c.clientName ack ?_ hc.others)⟩
    intro d hd hexpected
    by_cases hsilent : d.hasListeners = false
    · have hne : d.clientName ≠ c.clientName := by
        intro heq
        have heq := List.inj_on_of_nodup_map hconn.clients hd hmem heq
        rw [heq, hlistens] at hsilent
        cases hsilent
      exact (hc.asked d hd hexpected).acknowledge hc.task.windowOpen hc.considerAck hne ack
    · refine ⟨?_, fun h => absurd h hsilent, fun h => absurd h hsilent⟩
      rw [hsame.machState d.machineName]
      exact (hc.asked d hd hexpected).update
  · obtain ⟨acked, hthread⟩ := hr.thread
    have hwindow : w.server.windowOpen = true := by simp [PowerManager.windowOpen, hthread]
    have hblocked : Network.acknowledge w.server c.clientName ack = w.server := by
      cases ack with
      | none => rfl
      | some ackType => rw [Network.acknowledge, PowerManager.sendActivityStateAck, if_pos hwindow]
    rw [hblocked]
    exact .inr ⟨state, machineName, .inr hr⟩

/-- A request made while nothing is under way: it changes nothing, resumes at once, begins a cycle
or leaves the resumption to a task. -/
theorem sendActivityState_cases {m : PowerManager} (hwindow : m.withinSuspendTimeout = false)
    (state : TcuActivityState) (machineName : MachineName) (configured : ErrorCode) :
    ((m.sendActivityState state machineName configured).1 = m ∧
        m.notifies (.sendActivityState state machineName configured) = none) ∨
      ((m.sendActivityState state machineName configured).1 = m.doResume machineName ∧
        m.notifies (.sendActivityState state machineName configured) =
          some (.resume, machineName)) ∨
      ((m.sendActivityState state machineName configured).1 = m.beginCycle state machineName ∧
        m.notifies (.sendActivityState state machineName configured) = some (state, machineName) ∧
        (state = .suspend ∨ state = .shutdown) ∧ m.machState machineName ≠ state) ∨
      ((m.sendActivityState state machineName configured).1 =
          { m with queue := m.queue ++ [.doResume machineName] } ∧
        m.notifies (.sendActivityState state machineName configured) = none) := by
  rw [PowerManager.sendActivityState, PowerManager.notifies]
  by_cases hunknown : state = .unknown
  · simp [hunknown]
  by_cases hsame : state = m.machState machineName
  · by_cases hresume : state = .resume
    · by_cases hlocal : m.localMachState = .resume
      · left
        simp [hsame.symm, hresume, hlocal, hwindow]
      · right
        left
        simp [hsame.symm, hresume, hlocal]
    · left
      simp [hunknown, hsame.symm, hresume]
  · by_cases hconfigured : configured = .success
    · by_cases hresume : state = .resume
      · right
        right
        right
        rw [hresume] at hsame
        simp [hsame, hresume, hconfigured]
      · right
        right
        left
        refine ⟨?_, ?_, ?_, Ne.symm hsame⟩
        · simp [hunknown, hsame, hresume, hconfigured]
        · simp [hunknown, hsame, hresume, hconfigured]
        · cases state with
          | resume => exact absurd rfl hresume
          | suspend => exact .inl rfl
          | shutdown => exact .inr rfl
          | unknown => exact absurd rfl hunknown
    · left
      simp [hunknown, hsame, hconfigured]

theorem step_sendActivityState {m : PowerManager} {state : TcuActivityState}
    {machineName : MachineName} {configured : ErrorCode}
    (h : (m.sendActivityState state machineName configured).1.threads = []) :
    m.step (.sendActivityState state machineName configured) =
      (m.sendActivityState state machineName configured).1 := by
  rw [PowerManager.step]
  split
  · generalize (m.sendActivityState state machineName configured).1 = m' at h ⊢
    simp [h]
    cases m'
    simp_all
  · rfl

theorem slaves_doResume (m : PowerManager) (machineName : MachineName) :
    (m.doResume machineName).slaves = m.slaves := by
  cases machineName <;> rfl

/-- The machines are resumed and the slaves told so. -/
theorem Calm.resume {w : Network} (h : w.Calm) {m : PowerManager} (hthreads : m.threads = [])
    (htasks : m.queue = []) (hwindow : m.withinSuspendTimeout = false)
    (hreceived : m.resumeReceivedWithinTimeout = false)
    (hstates : ∀ machineName, m.machState machineName = w.server.machState machineName)
    (machineName : MachineName) :
    Calm ⟨m.doResume machineName, push w.clients (some (.resume, machineName))⟩ := by
  refine ⟨?_, ?_, ?_, ?_, ?_⟩
  · cases machineName <;> exact hthreads
  · cases machineName <;> exact .inl htasks
  · cases machineName <;> exact hwindow
  · cases machineName <;> exact hreceived
  · apply told_push (m := m) (fun c hc => (h.told c hc).trans (hstates c.machineName).symm)
    exact PowerManager.machState_doResume m machineName

/-- The slaves are asked, when the updates before have come. -/
theorem Calm.beginCycle {w : Network} (h : w.Calm) (hidle : w.Idle) (hdrained : w.Drained)
    {state : TcuActivityState} {machineName : MachineName}
    (hlowered : state = .suspend ∨ state = .shutdown)
    (hnews : w.server.machState machineName ≠ state) :
    Collecting ⟨w.server.beginCycle state machineName,
      push w.clients (some (state, machineName))⟩ state machineName := by
  have hstate : ∀ c ∈ w.clients, c.state = w.server.machState c.machineName :=
    fun c hc => (Client.last_nil (hdrained c hc)).symm.trans (h.told c hc)
  have hqueue : (w.server.beginCycle state machineName).queue =
      [.initiateSuspend ⟨state, machineName, []⟩] := by
    rw [PowerManager.beginCycle, hidle.1]
    rfl
  refine ⟨⟨[], .inl ⟨hqueue, hidle.2⟩⟩, rfl, rfl, h.window, h.received, hlowered, hnews, ?_, ?_⟩
  · intro d hd hexpected
    obtain ⟨c, hc, rfl⟩ := List.mem_map.mp hd
    rw [Client.info_push] at hexpected
    have hpush : c.push state machineName = { c with updates := [state] } := by
      rw [Client.push, if_pos hexpected, hdrained c hc]
      rfl
    rw [hpush]
    refine ⟨.inl ⟨rfl, hstate c hc⟩, fun _ => ?_, fun _ => List.not_mem_nil⟩
    simp [PowerManager.beginCycle]
  · intro d hd hexpected
    obtain ⟨c, hc, rfl⟩ := List.mem_map.mp hd
    rw [Client.info_push] at hexpected
    have hpush : c.push state machineName = c := by rw [Client.push, if_neg hexpected]
    rw [hpush]
    exact ⟨hdrained c hc, hstate c hc⟩

theorem Phased.sendActivityState {w : Network} (h : w.Phased) (hidle : w.Idle)
    (hdrained : w.Drained) (state : TcuActivityState) (machineName : MachineName)
    (configured : ErrorCode) :
    Phased ⟨w.server.step (.sendActivityState state machineName configured),
      push w.clients (w.server.notifies (.sendActivityState state machineName configured))⟩ := by
  have hcalm := h.calm hidle
  rcases sendActivityState_cases hcalm.window state machineName configured with
    ⟨hr, hn⟩ | ⟨hr, hn⟩ | ⟨hr, hn, hlowered, hnews⟩ | ⟨hr, hn⟩
  · rw [step_sendActivityState (by rw [hr]; exact hidle.2), hr, hn]
    exact h
  · have hthreads : (w.server.doResume machineName).threads = [] := by
      cases machineName <;> exact hidle.2
    rw [step_sendActivityState (by rw [hr]; exact hthreads), hr, hn]
    exact ⟨h.connected.push (slaves_doResume _ _) _,
      .inl (hcalm.resume hidle.2 hidle.1 hcalm.window hcalm.received (fun _ => rfl) machineName)⟩
  · rw [step_sendActivityState (by rw [hr]; exact hidle.2), hr, hn]
    have hconn := h.connected.push (m := w.server.beginCycle state machineName) rfl
      (some (state, machineName))
    exact ⟨hconn, .inr ⟨state, machineName, .inl (hcalm.beginCycle hidle hdrained hlowered hnews)⟩⟩
  · rw [step_sendActivityState (by rw [hr]; exact hidle.2), hr, hn]
    refine ⟨⟨h.connected.registered, h.connected.slaves, h.connected.clients, h.connected.cached⟩,
      .inl ⟨hidle.2, .inr ⟨machineName, ?_⟩, hcalm.window, hcalm.received, hcalm.told⟩⟩
    simp [hidle.1]

theorem Phased.beginTask {w : Network} (h : w.Phased) :
    Phased ⟨w.server.beginTask, push w.clients (w.server.notifies .beginTask)⟩ := by
  rcases h.phase with hcalm | ⟨state, machineName, hc | hr⟩
  · have hfree : w.server.busy = false := by simp [PowerManager.busy, hcalm.threads]
    rcases hcalm.tasks with hq | ⟨machineName, hq⟩
    · have hserver : w.server.beginTask = w.server := by
        simp [PowerManager.beginTask, hq]
      have hnone : w.server.notifies .beginTask = none := by
        simp [PowerManager.notifies, hq]
      rw [hserver, hnone]
      exact h
    · have hserver : w.server.beginTask =
          PowerManager.doResume { w.server with queue := [] } machineName := by
        simp [PowerManager.beginTask, hq, hfree]
      have hsome : w.server.notifies .beginTask = some (.resume, machineName) := by
        simp [PowerManager.notifies, hq, hfree]
      have hslaves : w.server.beginTask.slaves = w.server.slaves := by
        rw [hserver, slaves_doResume]
      rw [hsome]
      refine ⟨h.connected.push hslaves _, .inl ?_⟩
      rw [hserver]
      exact hcalm.resume (m := { w.server with queue := [] }) hcalm.threads rfl hcalm.window
        hcalm.received (fun _ => rfl) machineName
  · obtain ⟨acked, ⟨hq, ht⟩ | ⟨hq, ht⟩⟩ := hc.task
    · have hfree : w.server.busy = false := by simp [PowerManager.busy, ht]
      have hserver : w.server.beginTask = { w.server with
          queue := []
          threads := [⟨⟨state, machineName, acked⟩, true, false, false⟩] } := by
        simp [PowerManager.beginTask, hq, hfree, ht]
      have hnone : w.server.notifies .beginTask = none := by
        simp [PowerManager.notifies, hq]
      rw [hserver, hnone]
      refine ⟨⟨h.connected.registered, h.connected.slaves, h.connected.clients,
        h.connected.cached⟩, .inr ⟨state, machineName, .inl ⟨⟨acked, .inr ⟨rfl, rfl⟩⟩,
        hc.considerAck, hc.noack, hc.window, hc.received, hc.lowered, hc.news, ?_, hc.others⟩⟩⟩
      intro d hd hexpected
      obtain ⟨hupdate, hack, hnack⟩ := hc.asked d hd hexpected
      exact ⟨hupdate, hack, hnack⟩
    · have hbusy : w.server.busy = true := by simp [PowerManager.busy, ht]
      have hserver : w.server.beginTask = w.server := by simp [PowerManager.beginTask, hbusy]
      have hnone : w.server.notifies .beginTask = none := by
        simp [PowerManager.notifies, hbusy]
      rw [hserver, hnone]
      exact h
  · obtain ⟨acked, ht⟩ := hr.thread
    have hbusy : w.server.busy = true := by simp [PowerManager.busy, ht]
    have hserver : w.server.beginTask = w.server := by simp [PowerManager.beginTask, hbusy]
    have hnone : w.server.notifies .beginTask = none := by
      simp [PowerManager.notifies, hbusy]
    rw [hserver, hnone]
    exact h

/-- What the cycle ends with. -/
theorem calm_assign {clients : List Client} {m : PowerManager} {cycle : Cycle}
    (hthreads : m.threads = []) (htasks : m.queue = [])
    (hwindow : m.withinSuspendTimeout = false) (hreceived : m.resumeReceivedWithinTimeout = false)
    (htold : ∀ c ∈ clients, c.updates = [] ∧
      c.state = if c.info.expected cycle.machineName then cycle.state
        else m.machState c.machineName) : Calm ⟨m.assign cycle, clients⟩ := by
  have hfields : (m.assign cycle).threads = m.threads ∧ (m.assign cycle).queue = m.queue ∧
      (m.assign cycle).withinSuspendTimeout = m.withinSuspendTimeout ∧
      (m.assign cycle).resumeReceivedWithinTimeout = m.resumeReceivedWithinTimeout := by
    rw [PowerManager.assign]
    split <;> exact ⟨rfl, rfl, rfl, rfl⟩
  obtain ⟨h1, h2, h3, h4⟩ := hfields
  refine ⟨h1.trans hthreads, .inl (h2.trans htasks), h3.trans hwindow, h4.trans hreceived, ?_⟩
  intro c hc
  obtain ⟨hnone, hstate⟩ := htold c hc
  rw [Client.last_nil hnone, hstate]
  exact (PowerManager.machState_assign m cycle c).symm

theorem slaves_assign (m : PowerManager) (cycle : Cycle) : (m.assign cycle).slaves = m.slaves := by
  rw [PowerManager.assign]
  split <;> rfl

theorem Phased.collect {w : Network} (h : w.Phased) (hdrained : w.Drained) (n : Nat) :
    Phased ⟨w.server.collect n, w.clients⟩ := by
  rcases h.phase with hcalm | ⟨state, machineName, hc | hr⟩
  · have hserver : w.server.collect n = w.server := by
      simp [PowerManager.collect, hcalm.threads]
    rw [hserver]
    exact h
  · have hwindow := hc.task.windowOpen
    obtain ⟨acked, ⟨hq, ht⟩ | ⟨hq, ht⟩⟩ := hc.task
    · have hserver : w.server.collect n = w.server := by simp [PowerManager.collect, ht]
      rw [hserver]
      exact h
    cases n with
    | succ n =>
      have hserver : w.server.collect (n + 1) = w.server := by simp [PowerManager.collect, ht]
      rw [hserver]
      exact h
    | zero =>
      have htold : ∀ c ∈ w.clients, c.updates = [] ∧ c.state =
          if c.info.expected machineName then state else w.server.machState c.machineName := by
        intro c hmem
        refine ⟨hdrained c hmem, ?_⟩
        by_cases hexpected : c.info.expected machineName
        · rw [if_pos hexpected]
          rcases (hc.asked c hmem hexpected).update with ⟨hcoming, -⟩ | ⟨-, hstate⟩
          · rw [hdrained c hmem] at hcoming
            cases hcoming
          · exact hstate
        · rw [if_neg hexpected]
          exact (hc.others c hmem hexpected).2
      have hcollect : w.server.collect 0 =
          if (w.server.report ⟨state, machineName, acked⟩).2 ≠ [] ∨
              (w.server.report ⟨state, machineName, acked⟩).1 ≠ [] then
            { w.server with
              considerAck := false
              noackClients := (w.server.report ⟨state, machineName, acked⟩).2
              withinSuspendTimeout := true
              threads := [⟨⟨state, machineName, acked⟩, true, true, false⟩] }
          else
            PowerManager.assign { w.server with
              considerAck := false
              noackClients := (w.server.report ⟨state, machineName, acked⟩).2
              threads := [] } ⟨state, machineName, acked⟩ := by
        simp [PowerManager.collect, ht, hwindow]
      rw [hcollect]
      split
      · exact ⟨⟨h.connected.registered, h.connected.slaves, h.connected.clients,
          h.connected.cached⟩, .inr ⟨state, machineName, .inr ⟨hq, ⟨acked, rfl⟩, hc.received,
          htold⟩⟩⟩
      · refine ⟨h.connected.server (by rw [slaves_assign]), .inl ?_⟩
        exact calm_assign rfl hq hc.window hc.received htold
  · obtain ⟨acked, ht⟩ := hr.thread
    have hwindow : w.server.windowOpen = true := by simp [PowerManager.windowOpen, ht]
    have hserver : w.server.collect n = w.server := by
      cases n <;> simp [PowerManager.collect, ht, hwindow]
    rw [hserver]
    exact h

theorem Phased.timeout {w : Network} (h : w.Phased) (n : Nat) :
    Phased ⟨w.server.timeout n, w.clients⟩ := by
  rcases h.phase with hcalm | ⟨state, machineName, hc | hr⟩
  · have hserver : w.server.timeout n = w.server := by
      simp [PowerManager.timeout, hcalm.threads]
    rw [hserver]
    exact h
  · have hserver : w.server.timeout n = w.server := by
      obtain ⟨acked, ⟨-, ht⟩ | ⟨-, ht⟩⟩ := hc.task
      · simp [PowerManager.timeout, ht]
      · cases n <;> simp [PowerManager.timeout, ht]
    rw [hserver]
    exact h
  · obtain ⟨acked, ht⟩ := hr.thread
    cases n with
    | succ n =>
      have hserver : w.server.timeout (n + 1) = w.server := by simp [PowerManager.timeout, ht]
      rw [hserver]
      exact h
    | zero =>
      have hserver : w.server.timeout 0 = PowerManager.assign { w.server with
          withinSuspendTimeout := false
          threads := [] } ⟨state, machineName, acked⟩ := by
        simp [PowerManager.timeout, ht, hr.received]
      rw [hserver]
      refine ⟨h.connected.server (by rw [slaves_assign]), .inl ?_⟩
      exact calm_assign rfl hr.queue rfl hr.received hr.told

/-- The phases do not depend on the master. -/
theorem Phased.setMaster {w : Network} (h : w.Phased) (name : String) :
    Phased ⟨{ w.server with master := name }, w.clients⟩ := by
  refine ⟨h.connected.server rfl, ?_⟩
  rcases h.phase with hcalm | ⟨state, machineName, hc | hr⟩
  · exact .inl ⟨hcalm.threads, hcalm.tasks, hcalm.window, hcalm.received, hcalm.told⟩
  · refine .inr ⟨state, machineName, .inl ⟨hc.task, hc.considerAck, hc.noack, hc.window,
      hc.received, hc.lowered, hc.news, ?_, hc.others⟩⟩
    intro d hd hexpected
    obtain ⟨hupdate, hack, hnack⟩ := hc.asked d hd hexpected
    exact ⟨hupdate, hack, hnack⟩
  · exact .inr ⟨state, machineName, .inr ⟨hr.queue, hr.thread, hr.received, hr.told⟩⟩

theorem Phased.initService {w : Network} (h : w.Phased) (hidle : w.Idle)
    (clientName machName : String) (configured : Option ServiceStatus) :
    Phased ⟨w.server.initService .master clientName machName configured, w.clients⟩ := by
  have hrenew : ∀ status, PowerManager.renewQueue { w.server with master := clientName } status =
      { w.server with master := clientName } := by
    intro status
    rw [PowerManager.renewQueue]
    split
    · simp [hidle.1, hidle.2]
    · rfl
  have hserver : w.server.initService .master clientName machName configured = w.server ∨
      w.server.initService .master clientName machName configured =
        { w.server with master := clientName } := by
    cases hmachine : machine? machName with
    | none => simp [PowerManager.initService, hmachine]
    | some machineName =>
      cases configured with
      | none => simp [PowerManager.initService]
      | some status =>
        by_cases hnone : w.server.master = ""
        · simp only [PowerManager.initService, hmachine, if_pos hnone]
          exact .inr (hrenew status)
        · simp [PowerManager.initService, hmachine, hnone]
  rcases hserver with hserver | hserver
  · rw [hserver]
    exact h
  · rw [hserver]
    exact h.setMaster clientName

theorem Phased.step {w w' : Network} (h : w.Phased) {l : Label} (hpaced : w.Paced l)
    (hs : w.step l = some w') : w'.Phased := by
  cases l with
  | connect clientName machName configured =>
    cases hs
    exact h.connect hpaced.1 hpaced.2 machName configured
  | disconnect i =>
    rw [Network.step] at hs
    cases hi : w.clients[i]? with
    | none => simp [hi] at hs
    | some c =>
      simp only [hi] at hs
      cases hs
      exact h.disconnect hi
  | giveUp clientName =>
    rw [Network.step] at hs
    split at hs
    · cases hs
    · rename_i hother
      cases hs
      exact h.giveUp hother
  | server e =>
    rw [Network.step] at hs
    split at hs
    · rename_i hmaster
      cases hs
      cases e with
      | initService clientType clientName machName configured =>
        cases clientType with
        | master => exact h.initService hpaced clientName machName configured
        | slave => cases hmaster
      | deregisterFromServer clientType clientName =>
        cases clientType with
        | master => exact h.setMaster ""
        | slave => cases hmaster
      | sendActivityState state machineName configured =>
        exact h.sendActivityState hpaced.1 hpaced.2 state machineName configured
      | sendActivityStateAck clientName ackType => cases hmaster
      | beginTask => exact h.beginTask
      | collect n => exact h.collect hpaced n
      | timeout n => exact h.timeout n
    · cases hs
  | deliver i =>
    rw [Network.step] at hs
    cases hi : w.clients[i]? with
    | none => simp [hi] at hs
    | some c =>
      simp only [hi] at hs
      cases hupdates : c.updates with
      | nil => simp [hupdates] at hs
      | cons s updates =>
        simp only [hupdates] at hs
        cases hs
        exact h.deliver hi hupdates
  | answer i positive state =>
    rw [Network.step] at hs
    cases hi : w.clients[i]? with
    | none => simp [hi] at hs
    | some c =>
      simp only [hi] at hs
      split at hs
      · rename_i hlistens
        cases hs
        exact h.answer hi hlistens _
      · cases hs
  | listen i hasListeners =>
    rw [Network.step] at hs
    cases hi : w.clients[i]? with
    | none => simp [hi] at hs
    | some c =>
      simp only [hi] at hs
      cases hs
      exact h.listen hpaced hi hasListeners

theorem phased_new : new.Phased := by
  have hnone : ∀ c ∈ new.clients, False := fun c hc => List.not_mem_nil hc
  refine ⟨⟨fun c hc => (hnone c hc).elim, List.nodup_nil, List.nodup_nil,
    fun c hc => (hnone c hc).elim⟩, .inl ⟨rfl, .inl rfl, rfl, rfl, ?_⟩⟩
  exact fun c hc => (hnone c hc).elim

theorem phased_of_reachable {w : Network} (h : Runs.Reachable step Paced new w) : w.Phased :=
  h.invariant phased_new fun _ _ _ hpaced hs hinv => hinv.step hpaced hs

instance (w : Network) : Decidable w.Idle := inferInstanceAs (Decidable (_ ∧ _))

instance (w : Network) : Decidable w.Drained :=
  inferInstanceAs (Decidable (∀ c ∈ w.clients, c.updates = []))

instance (w : Network) : ∀ l, Decidable (w.Paced l)
  | .connect _ _ _ => inferInstanceAs (Decidable (_ ∧ _ ∉ _))
  | .disconnect _ => inferInstanceAs (Decidable True)
  | .giveUp _ => inferInstanceAs (Decidable True)
  | .server (.initService _ _ _ _) => inferInstanceAs (Decidable w.Idle)
  | .server (.deregisterFromServer _ _) => inferInstanceAs (Decidable True)
  | .server (.sendActivityState _ _ _) => inferInstanceAs (Decidable (_ ∧ _))
  | .server (.sendActivityStateAck _ _) => inferInstanceAs (Decidable True)
  | .server .beginTask => inferInstanceAs (Decidable True)
  | .server (.collect _) => inferInstanceAs (Decidable w.Drained)
  | .server (.timeout _) => inferInstanceAs (Decidable True)
  | .deliver _ => inferInstanceAs (Decidable True)
  | .answer _ _ _ => inferInstanceAs (Decidable True)
  | .listen _ _ => inferInstanceAs (Decidable w.Idle)

/-- The local machine is suspended, then all machines are to be. -/
def localThenAll : List Label :=
  [.connect "nav" "LOCAL_MACHINE" (some .available),
    .server (.sendActivityState .suspend .machLocal .success), .server .beginTask, .deliver 0,
    .server (.collect 0), .server (.sendActivityState .suspend .machAll .success),
    .server .beginTask, .deliver 0]

/-- Among the slaves without listeners that are to acknowledge a cycle, no one is reported as
refusing, and as silent just the slaves of the local machine when all machines are to enter the
state that this machine has already: to them the update is no news. -/
theorem noack_iff (w : Network) (h : Runs.Reachable step Paced new w) (hdrained : w.Drained)
    {n : Nat} {t : SuspendThread} (ht : w.server.threads[n]? = some t)
    (hwindow : w.server.windowOpen = false) {c : Client} (hc : c ∈ w.clients)
    (hsilent : c.hasListeners = false) (hexpected : c.info.expected t.cycle.machineName) :
    c.clientName ∉ (w.server.report t.cycle).1 ∧
      (c.clientName ∈ (w.server.report t.cycle).2 ↔
        t.cycle.machineName = .machAll ∧ c.machineName = .machLocal ∧
          w.server.localMachState = t.cycle.state) := by
  have hphased := phased_of_reachable h
  rcases hphased.phase with hcalm | ⟨state, machineName, hcollecting | hreported⟩
  · simp [hcalm.threads] at ht
  · have hcycle : t.cycle.state = state ∧ t.cycle.machineName = machineName := by
      obtain ⟨acked, ⟨-, hthreads⟩ | ⟨-, hthreads⟩⟩ := hcollecting.task
      · simp [hthreads] at ht
      · have hmem := List.mem_of_getElem? ht
        rw [hthreads, List.mem_singleton] at hmem
        rw [hmem]
        exact ⟨rfl, rfl⟩
    rw [hcycle.2] at hexpected
    have hasked := hcollecting.asked c hc hexpected
    have hnack := hasked.nack hsilent
    have hack := hasked.ack hsilent
    have hregistered : w.server.Addressed machineName c.clientName :=
      ⟨c.info, hphased.connected.registered c hc, rfl, hexpected⟩
    refine ⟨hnack, ?_⟩
    rw [PowerManager.report, hcollecting.noack, List.nil_append, PowerManager.mem_noAcks, hcycle.1,
      hcycle.2, hack]
    have hnews := hcollecting.news
    have hwho := (c.expected_iff machineName).mp hexpected
    have hstates : w.server.machState c.machineName = state ↔
        machineName = .machAll ∧ c.machineName = .machLocal ∧
          w.server.localMachState = state := by
      constructor
      · intro heq
        have hne : c.machineName ≠ machineName := by
          rintro rfl
          exact hnews heq
        cases hm : machineName with
        | machLocal =>
          rw [hm] at hwho hne
          rcases hwho with hwho | hwho
          · cases hwho
          · exact absurd hwho hne
        | machAll =>
          cases hcm : c.machineName with
          | machLocal =>
            rw [hcm] at heq
            exact ⟨rfl, rfl, heq⟩
          | machAll => exact absurd (hcm.trans hm.symm) hne
      · rintro ⟨-, hlocal, heq⟩
        rw [hlocal]
        exact heq
    rw [← hstates]
    simp [hregistered, hdrained c hc, hnack]
  · obtain ⟨acked, hthread⟩ := hreported.thread
    simp [PowerManager.windowOpen, hthread] at hwindow

theorem noack_localThenAll :
    ∃ w : Network, (⟨"nav", .machLocal, .suspend, .suspend, false, []⟩ : Client) ∈ w.clients ∧
      "nav" ∉ (w.server.report ⟨.suspend, .machAll, []⟩).1 ∧
        ("nav" ∈ (w.server.report ⟨.suspend, .machAll, []⟩).2 ↔
          MachineName.machAll = .machAll ∧ MachineName.machLocal = .machLocal ∧
            w.server.localMachState = .suspend) := by
  obtain ⟨w, hw, hstate⟩ := Runs.exists_reachable_of_run step Paced new
    (fun w => (w.server.threads, w.clients))
    ([⟨⟨.suspend, .machAll, []⟩, true, false, false⟩],
      [⟨"nav", .machLocal, .suspend, .suspend, false, []⟩]) localThenAll (by decide)
  obtain ⟨hthreads, hclients⟩ := Prod.mk.inj hstate
  have hmem : (⟨"nav", .machLocal, .suspend, .suspend, false, []⟩ : Client) ∈ w.clients := by
    rw [hclients]
    exact List.mem_singleton.mpr rfl
  have hdrained : w.Drained := by
    intro c hc
    rw [hclients, List.mem_singleton] at hc
    rw [hc]
  have hfirst : w.server.threads[0]? = some ⟨⟨.suspend, .machAll, []⟩, true, false, false⟩ := by
    rw [hthreads]
    rfl
  have hwindow : w.server.windowOpen = false := by rw [PowerManager.windowOpen, hthreads]; rfl
  exact ⟨w, hmem, noack_iff w hw hdrained hfirst hwindow hmem rfl rfl⟩

/-- When nothing is under way, a slave whose updates have come has the state of its machine. -/
theorem states_agree (w : Network) (h : Runs.Reachable step Paced new w) (hidle : w.Idle)
    {c : Client} (hc : c ∈ w.clients) (hcome : c.updates = []) :
    c.currentTcuState = w.server.machState c.machineName := by
  have hphased := phased_of_reachable h
  have htold := (hphased.calm hidle).told c hc
  rw [Client.last_nil hcome] at htold
  exact (hphased.connected.cached c hc).trans htold

theorem states_agree_first :
    ∃ w : Network, ∃ c ∈ w.clients, c.currentTcuState = w.server.machState c.machineName := by
  obtain ⟨w, hw, hstate⟩ := Runs.exists_reachable_of_run step Paced new
    (fun w => (w.server.queue, w.server.threads, w.clients))
    ([], [], [⟨"nav", .machLocal, .suspend, .suspend, false, []⟩]) (localThenAll.take 5) (by decide)
  obtain ⟨hqueue, hrest⟩ := Prod.mk.inj hstate
  obtain ⟨hthreads, hclients⟩ := Prod.mk.inj hrest
  have hmem : (⟨"nav", .machLocal, .suspend, .suspend, false, []⟩ : Client) ∈ w.clients := by
    rw [hclients]
    exact List.mem_singleton.mpr rfl
  exact ⟨w, _, hmem, states_agree w hw ⟨hqueue, hthreads⟩ hmem rfl⟩

end Network

end Power

end SatComm
