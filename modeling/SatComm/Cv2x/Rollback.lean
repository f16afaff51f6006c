import SatComm.Cv2x.Creation

/-!
# What creation calls report and undo

A creation call passes `SUCCESS` with an object and another error without one, and leaves no trace
when it passes no object and could undo its earlier steps. This holds of receive subscriptions. It
fails where the error of a request that undoes something, or that of an event flow, takes the place
of the error of the step that failed.
-/

namespace SatComm

namespace Cv2x

namespace Creation

/-! ## What a call is to do -/

/-- The tables of the server and the maps of the client are the same, but for those of one kind of
flows. -/
structure Kept (but : Option Kind) (s s' : Radio) : Prop where
  rxSubsVec : s'.server.rxSubsVec = s.server.rxSubsVec
  rxSubscriptions : s'.client.rxSubscriptions = s.client.rxSubscriptions
  spsFlows : but ≠ some .sps →
    s'.server.flows.spsFlows = s.server.flows.spsFlows ∧ s'.client.spsFlows = s.client.spsFlows
  eventFlows : but ≠ some .event →
    s'.server.flows.evtFlows = s.server.flows.evtFlows ∧ s'.client.eventFlows = s.client.eventFlows
  tcpSockets : s'.client.tcpSockets = s.client.tcpSockets

/-- The error tells whether there is an object, and where there is none and what was done is undone,
everything is as before. -/
structure Honest {α : Type} (but : Option Kind) (s s' : Radio) (p : Passed α) : Prop where
  truthful : p.error = .SUCCESS ↔ p.object.isSome = true
  undone : p.object = none → (∀ status ∈ p.undone, status = .SUCCESS) → Kept but s s'

/-- A call with other ports fails at once. -/
def Call.Honest (o : Outcomes) (s : Radio) (c : Call) : Prop :=
  c.Valid →
  match c with
  | .createRxSubscription ipType port idList =>
    let r := createRxSubscriptionSync o s ipType port idList
    Creation.Honest none s r.1 r.2
  | .createTxEventFlow ipType serviceId eventSrcPort =>
    let r := initTxEventFlow o s ipType serviceId eventSrcPort
    Creation.Honest none s r.1 r.2
  | .createTxSpsFlow ipType serviceId spsSrcPort eventSrcPort =>
    let r := createTxSpsFlowSync o s ipType serviceId spsSrcPort eventSrcPort
    Creation.Honest (eventSrcPort.map fun _ => .event) s r.1 r.2.1 ∧
      (eventSrcPort.isSome → Creation.Honest (some .sps) s r.1 r.2.2)
  | .createCv2xTcpSocket serviceId localPort =>
    let r := createCv2xTcpSocketSync o s serviceId localPort
    Creation.Honest none s r.1 r.2

/-! ## When it does so -/

/-- The status and the error say the same. -/
def Reply.Agrees (r : Reply) : Prop := r.status = .SUCCESS ↔ r.error = .SUCCESS

/-- The request gets through to a server that is configured to serve it. -/
def Rpc.Serves (rpc : Rpc) : Prop := ∃ error, rpc = .answered .SUCCESS error

/-- The answer to the registration of an event flow, and to the request that undoes it. -/
structure EventReplies where
  registered : Reply
  deregistered : Reply

def eventReplies (o : Outcomes) (s : RadioServer) (request : FlowInfo) : EventReplies :=
  let registered := registerFlow s request o.registerEvent
  ⟨registered.2, (deregisterFlow registered.1 request (State.toByte registered.2.flowId)
    o.deregisterEvent).2⟩

/-- The event flow is registered and its socket opens. -/
def EventReplies.Made (e : EventReplies) (o : Outcomes) : Prop :=
  e.registered.status = .SUCCESS ∧ o.initTxEventSock = true

/-- The answer that is passed on does not contradict itself. -/
def EventReplies.Regular (e : EventReplies) (o : Outcomes) : Prop :=
  if e.registered.status = .SUCCESS ∧ o.initTxEventSock = false then
    e.deregistered.status ≠ .SUCCESS → e.deregistered.error ≠ .SUCCESS
  else e.registered.Agrees

/-- The answers of the server to the requests of the call, and the sockets, for which the call does
what it is to do. -/
def Call.Regular (o : Outcomes) (s : Radio) (c : Call) : Prop :=
  c.Valid →
  match c with
  | .createRxSubscription .. => True
  | .createTxEventFlow ipType serviceId eventSrcPort =>
    (eventReplies o s.server (flowInfo .event ipType serviceId eventSrcPort 0)).Regular o
  | .createTxSpsFlow ipType serviceId spsSrcPort eventSrcPort =>
    let registered := (registerFlow s.server
      (flowInfo .sps ipType serviceId spsSrcPort (eventSrcPort.getD 0)) o.registerSps).2
    if registered.status = .SUCCESS then
      ∀ port ∈ eventSrcPort,
        let e := eventReplies o s.server (flowInfo .event ipType serviceId port 0)
        e.Regular o ∧
          if o.initTxSpsSock then e.Made o ∨ registered.error ≠ .SUCCESS else ¬ e.Made o
    else registered.error ≠ .SUCCESS
  | .createCv2xTcpSocket serviceId localPort =>
    o.initTcpSock = true → s.client.isTcpSocketPresent serviceId = false →
    (addRxSubscription s.server ⟨localPort, trafficIp, [serviceId]⟩ o.addRxSubscription).2 =
      .SUCCESS →
    let e := eventReplies o s.server (flowInfo .tcp trafficIp serviceId localPort 0)
    if e.registered.status = .SUCCESS then
      if s.client.tcpSockets.get? (State.toByte e.registered.flowId) = none then
        e.registered.error = .SUCCESS
      else e.deregistered.error ≠ .SUCCESS
    else ¬ o.delRxSubscription.Serves

/-! ## Requests that are undone -/

section Requests

variable {s s' : RadioServer} {request : FlowInfo} {rpc rpc' : Rpc} {tb : Table}

/-- The server after a registration. -/
def registeredFlow (s : RadioServer) (request : FlowInfo) (tb : Table) (id : Nat) : RadioServer :=
  { s with flows := { s.flows.setTable tb
      ((s.flows.table tb).set id ⟨request, id, s.flows.registrations⟩) with
    registrations := s.flows.registrations + 1 } }

@[simp] theorem table_registeredFlow (s : RadioServer) (request : FlowInfo) (tb tb' : Table)
    (id : Nat) : (registeredFlow s request tb id).flows.table tb' =
      if tb' = tb then (s.flows.table tb).set id ⟨request, id, s.flows.registrations⟩
      else s.flows.table tb' :=
  table_setTable_registrations _ _ _ _ _

/-- A flow is registered under the next number, or the server stays as it is. -/
theorem registerFlow_eq (s : RadioServer) (request : FlowInfo) (rpc : Rpc) :
    ((registerFlow s request rpc).1 = s ∧ (registerFlow s request rpc).2.status ≠ .SUCCESS) ∨
    ∃ tb id error, request.table? = some tb ∧ s.flows.nextId tb = some id ∧
      registerFlow s request rpc = (registeredFlow s request tb id, ⟨.SUCCESS, error, id⟩) := by
  unfold registerFlow flowRpcCall
  cases rpc with
  | lost => exact Or.inl ⟨rfl, nofun⟩
  | answered status error =>
    dsimp only
    split_ifs with hstatus
    · exact Or.inl ⟨rfl, hstatus⟩
    · by_cases hnone : ∀ tb, request.table? = some tb → s.flows.nextId tb = none
      · rw [RadioServer.registerFlow_none hnone]
        exact Or.inl ⟨rfl, nofun⟩
      · push Not at hnone
        obtain ⟨tb, htable, hnext⟩ := hnone
        obtain ⟨id, hid⟩ := Option.ne_none_iff_exists'.mp hnext
        refine Or.inr ⟨tb, id, error, htable, hid, ?_⟩
        simp only [RadioServer.registerFlow, Cv2xRadioServer.registerFlow, htable, hid]
        rfl

/-- A flow is dropped, or the server stays as it is. -/
theorem deregisterFlow_eq (s : RadioServer) (request : FlowInfo) (flowId : Nat) (rpc : Rpc) :
    ((deregisterFlow s request flowId rpc).1 = s ∧
      (deregisterFlow s request flowId rpc).2.status ≠ .SUCCESS) ∨
    ∃ tb error, request.table? = some tb ∧ ((s.flows.table tb).get? flowId).isSome ∧
      deregisterFlow s request flowId rpc =
        ({ s with flows := s.flows.setTable tb ((s.flows.table tb).erase flowId) },
          ⟨.SUCCESS, error, 0⟩) := by
  unfold deregisterFlow flowRpcCall
  cases rpc with
  | lost => exact Or.inl ⟨rfl, nofun⟩
  | answered status error =>
    dsimp only
    split_ifs with hstatus
    · exact Or.inl ⟨rfl, hstatus⟩
    · unfold RadioServer.deregisterFlow Cv2xRadioServer.deregisterFlow
      cases htable : request.table? with
      | none => exact Or.inl ⟨rfl, nofun⟩
      | some tb =>
        cases hget : (s.flows.table tb).get? flowId with
        | none =>
          dsimp only
          rw [hget]
          exact Or.inl ⟨rfl, nofun⟩
        | some v =>
          refine Or.inr ⟨tb, error, rfl, by rw [hget]; rfl, ?_⟩
          dsimp only
          rw [hget]
          rfl

/-- The answer to a flow request, with what comes of it if it is served. -/
def Rpc.reply (rpc : Rpc) (served : Option Nat) : Reply :=
  match rpc with
  | .lost => ⟨.FAILED, .NOT_PROVISIONED, 0⟩
  | .answered status error =>
    if status ≠ .SUCCESS then ⟨status, error, 0⟩
    else
      match served with
      | some id => ⟨.SUCCESS, error, id⟩
      | none => ⟨.FAILED, .MODEM_ERR, 0⟩

theorem registerFlow_reply (s : RadioServer) (request : FlowInfo) (rpc : Rpc) :
    (registerFlow s request rpc).2 = rpc.reply (request.table?.bind s.flows.nextId) := by
  unfold registerFlow flowRpcCall Rpc.reply
  cases rpc with
  | lost => rfl
  | answered status error =>
    dsimp only
    split_ifs
    · rfl
    · unfold RadioServer.registerFlow Cv2xRadioServer.registerFlow
      cases htable : request.table? with
      | none => rfl
      | some tb =>
        dsimp only [Option.bind_some]
        cases s.flows.nextId tb <;> rfl

theorem deregisterFlow_reply (s : RadioServer) (request : FlowInfo) (flowId : Nat) (rpc : Rpc) :
    (deregisterFlow s request flowId rpc).2 =
      rpc.reply (request.table?.bind fun tb =>
        if ((s.flows.table tb).get? flowId).isSome then some 0 else none) := by
  unfold deregisterFlow flowRpcCall Rpc.reply
  cases rpc with
  | lost => rfl
  | answered status error =>
    dsimp only
    split_ifs
    · rfl
    · unfold RadioServer.deregisterFlow Cv2xRadioServer.deregisterFlow
      cases htable : request.table? with
      | none => rfl
      | some tb =>
        dsimp only [Option.bind_some]
        cases (s.flows.table tb).get? flowId <;> rfl

/-- The answer does not depend on the subscriptions. -/
theorem deregisterFlow_reply_congr {flowId : Nat} (h : s'.flows = s.flows) :
    (deregisterFlow s' request flowId rpc).2 = (deregisterFlow s request flowId rpc).2 := by
  rw [deregisterFlow_reply, deregisterFlow_reply, h]

/-- A number is in use after a registration if it was before, or if it is the new one. -/
theorem isSome_registerFlow (htable : request.table? = some tb) (k : Nat) :
    (((registerFlow s request rpc).1.flows.table tb).get? k).isSome = true ↔
      ((s.flows.table tb).get? k).isSome = true ∨
        (registerFlow s request rpc).2.status = .SUCCESS ∧
          k = (registerFlow s request rpc).2.flowId := by
  rcases registerFlow_eq s request rpc with ⟨hsame, hnot⟩ | ⟨tb₁, id, error, h₁, -, heq⟩
  · rw [hsame]
    exact (or_iff_left fun h => hnot h.1).symm
  · obtain rfl : tb₁ = tb := Option.some.inj (h₁.symm.trans htable)
    rw [heq]
    simp only [table_registeredFlow, if_true, Assoc.Map.get?_set, true_and]
    by_cases hk : k = id <;> simp [hk]

/-- The answers depend on the flows of the kind only. -/
theorem eventReplies_congr (o : Outcomes)
    (h : ∀ tb, request.table? = some tb → s'.flows.table tb = s.flows.table tb) :
    eventReplies o s' request = eventReplies o s request := by
  have hgranted : request.table?.bind s'.flows.nextId = request.table?.bind s.flows.nextId := by
    cases htable : request.table? with
    | none => rfl
    | some tb =>
      rw [Option.bind_some, Option.bind_some, RadioServer.nextId_eq, RadioServer.nextId_eq,
        h tb htable]
  have hregistered : (registerFlow s' request o.registerEvent).2 =
      (registerFlow s request o.registerEvent).2 := by
    rw [registerFlow_reply, registerFlow_reply, hgranted]
  have hfound : (request.table?.bind fun tb =>
        if (((registerFlow s' request o.registerEvent).1.flows.table tb).get?
          (State.toByte (registerFlow s request o.registerEvent).2.flowId)).isSome
        then some 0 else none) =
      request.table?.bind fun tb =>
        if (((registerFlow s request o.registerEvent).1.flows.table tb).get?
          (State.toByte (registerFlow s request o.registerEvent).2.flowId)).isSome
        then some 0 else none := by
    cases htable : request.table? with
    | none => rfl
    | some tb =>
      simp only [Option.bind_some, isSome_registerFlow htable, hregistered, h tb htable]
  unfold eventReplies
  simp only [hregistered, deregisterFlow_reply, hfound]

/-- The byte of a number that is in use is the number. -/
theorem toByte_eq {id : Nat} (hid : tb.base ≤ id ∧ id < tb.base + tb.max)
    (h : State.toByte id = id ∨ tb.base ≤ State.toByte id) : State.toByte id = id := by
  rcases h with h | h
  · exact h
  · unfold State.toByte at h ⊢
    cases tb with
    | sps =>
      change 0 ≤ id ∧ id < 0 + 2 at hid
      omega
    | evt =>
      change 100 ≤ id ∧ id < 100 + 255 at hid
      change 100 ≤ id % 2 ^ 8 at h
      omega

/-- A flow that is registered and dropped again leaves the flows as they were. -/
theorem deregisterFlow_cases {id : Nat} (htable : request.table? = some tb)
    (hnext : s.flows.nextId tb = some id) (hrange : ∀ k ∈ s.flowIds tb, tb.base ≤ k)
    (hs' : s'.flows = (registeredFlow s request tb id).flows) (rpc : Rpc) :
    ((deregisterFlow s' request (State.toByte id) rpc).1 = s' ∧
      (deregisterFlow s' request (State.toByte id) rpc).2.status ≠ .SUCCESS) ∨
    ((deregisterFlow s' request (State.toByte id) rpc).2.status = .SUCCESS ∧
      (deregisterFlow s' request (State.toByte id) rpc).1.rxSubsVec = s'.rxSubsVec ∧
      ∀ tb', (deregisterFlow s' request (State.toByte id) rpc).1.flows.table tb' =
        s.flows.table tb') := by
  refine (deregisterFlow_eq s' request (State.toByte id) rpc).imp_right ?_
  rintro ⟨tb₁, error, h₁, hget, heq⟩
  obtain rfl : tb₁ = tb := Option.some.inj (h₁.symm.trans htable)
  rw [hs', table_registeredFlow, if_pos rfl, Assoc.Map.get?_set] at hget
  have hbyte : State.toByte id = id := by
    apply toByte_eq (RadioServer.nextId_range hnext)
    by_cases hid : State.toByte id = id
    · exact Or.inl hid
    · rw [if_neg hid] at hget
      exact Or.inr (hrange _ (RadioServer.mem_flowIds.mpr hget))
  rw [heq]
  refine ⟨rfl, rfl, fun tb' => ?_⟩
  simp only [hs', hbyte, table_setTable, table_registeredFlow, if_true]
  split_ifs with htb
  · rw [htb]
    exact Assoc.Map.erase_set (nextId_free hnext) _
  · rfl

/-- The server after a subscription is added. -/
def subscribed (s : RadioServer) (request : RxSubscription) : RadioServer :=
  { s with rxSubsVec := s.rxSubsVec ++ [request] }

/-- A subscription is added, or the server stays as it is. -/
theorem addRxSubscription_eq (s : RadioServer) (request : RxSubscription) (rpc : Rpc) :
    ((addRxSubscription s request rpc).1 = s ∧ (addRxSubscription s request rpc).2 ≠ .SUCCESS) ∨
    (s.rxSubsVec.any (·.conflicts request) = false ∧
      addRxSubscription s request rpc = (subscribed s request, .SUCCESS)) := by
  unfold addRxSubscription rxSubscriptionRpcCall
  cases rpc with
  | lost => exact Or.inl ⟨rfl, nofun⟩
  | answered status error =>
    dsimp only
    split_ifs with hstatus
    · exact Or.inl ⟨rfl, hstatus⟩
    · rcases s.addRxSubscription_cases request with ⟨-, heq⟩ | ⟨hany, heq⟩
      · rw [heq]
        exact Or.inl ⟨rfl, nofun⟩
      · rw [heq]
        exact Or.inr ⟨hany, rfl⟩

/-- The subscription that was added is deleted, and no other one, if the request is served. -/
theorem delRxSubscription_added {request : RxSubscription}
    (hany : s.rxSubsVec.any (·.conflicts request) = false) (s' : RadioServer)
    (hs' : s'.rxSubsVec = (subscribed s request).rxSubsVec) (rpc : Rpc) :
    (¬ rpc.Serves ∧ (delRxSubscription s' request rpc).1 = s' ∧
      (delRxSubscription s' request rpc).2 ≠ .SUCCESS) ∨
    (rpc.Serves ∧
      delRxSubscription s' request rpc = ({ s' with rxSubsVec := s.rxSubsVec }, .SUCCESS)) := by
  have hmatches : request.Matches request := ⟨rfl, rfl⟩
  have hothers : ∀ itr ∈ s.rxSubsVec, ¬ itr.Matches request := fun itr hitr =>
    (RxSubscription.conflicts_eq_false.mp (Bool.eq_false_iff.mpr
      (List.any_eq_false.mp hany itr hitr))).symm.not_matches hmatches
  have herase : request.eraseFirst s'.rxSubsVec = some s.rxSubsVec := by
    rw [hs', subscribed, RxSubscription.eraseFirst_append hothers hmatches, List.append_nil]
  unfold delRxSubscription rxSubscriptionRpcCall
  cases rpc with
  | lost => exact Or.inl ⟨nofun, rfl, nofun⟩
  | answered status error =>
    dsimp only
    split_ifs with hstatus
    · refine Or.inl ⟨?_, rfl, hstatus⟩
      rintro ⟨e, heq⟩
      exact hstatus (Rpc.answered.inj heq).1
    · refine Or.inr ⟨⟨error, by rw [not_not.mp hstatus]⟩, ?_⟩
      unfold RadioServer.delRxSubscription
      rw [herase]

end Requests

namespace Kept

variable {but : Option Kind} {s s' s'' : Radio}

theorem refl (but : Option Kind) (s : Radio) : Kept but s s :=
  ⟨rfl, rfl, fun _ => ⟨rfl, rfl⟩, fun _ => ⟨rfl, rfl⟩, rfl⟩

theorem trans (h : Kept but s s') (h' : Kept but s' s'') : Kept but s s'' where
  rxSubsVec := h'.rxSubsVec.trans h.rxSubsVec
  rxSubscriptions := h'.rxSubscriptions.trans h.rxSubscriptions
  spsFlows hbut := ⟨(h'.spsFlows hbut).1.trans (h.spsFlows hbut).1,
    (h'.spsFlows hbut).2.trans (h.spsFlows hbut).2⟩
  eventFlows hbut := ⟨(h'.eventFlows hbut).1.trans (h.eventFlows hbut).1,
    (h'.eventFlows hbut).2.trans (h.eventFlows hbut).2⟩
  tcpSockets := h'.tcpSockets.trans h.tcpSockets

theorem mono (h : Kept none s s') : Kept but s s' :=
  ⟨h.rxSubsVec, h.rxSubscriptions, fun _ => h.spsFlows nofun, fun _ => h.eventFlows nofun,
    h.tcpSockets⟩

/-- The client is not changed when only the server is. -/
theorem of_server {server : RadioServer} (hvec : server.rxSubsVec = s.server.rxSubsVec)
    (hflows : ∀ tb, server.flows.table tb = s.server.flows.table tb) :
    Kept none s { s with server := server } :=
  ⟨hvec, rfl, fun _ => ⟨hflows .sps, rfl⟩, fun _ => ⟨hflows .evt, rfl⟩, rfl⟩

end Kept

section Calls

variable {o : Outcomes} {s : Radio}

theorem honest_none_iff {α : Type} {but : Option Kind} {s s' : Radio} {ec : ErrorCode}
    {undone : List Status} (hkept : (∀ status ∈ undone, status = .SUCCESS) → Kept but s s') :
    Honest but s s' (⟨none, ec, undone⟩ : Passed α) ↔ ec ≠ .SUCCESS :=
  ⟨fun h hec => Bool.false_ne_true (h.truthful.mp hec),
    fun hec => ⟨iff_of_false hec Bool.false_ne_true, fun _ => hkept⟩⟩

theorem honest_some_iff {α : Type} {but : Option Kind} {s s' : Radio} {a : α} {ec : ErrorCode}
    {undone : List Status} :
    Honest but s s' (⟨some a, ec, undone⟩ : Passed α) ↔ ec = .SUCCESS :=
  ⟨fun h => h.truthful.mpr rfl, fun hec => ⟨iff_of_true hec rfl, nofun⟩⟩

/-! ## Receive subscriptions -/

theorem honest_createRxSubscription (o : Outcomes) (s : Radio) (ipType port : Nat)
    (idList : Option (List Nat)) :
    Honest none s (createRxSubscriptionSync o s ipType port idList).1
      (createRxSubscriptionSync o s ipType port idList).2 := by
  unfold createRxSubscriptionSync
  by_cases hstub : o.serviceStub = false
  · rw [if_pos hstub]
    exact ⟨iff_of_false nofun nofun, fun _ _ => Kept.refl none s⟩
  rw [if_neg hstub]
  dsimp only
  rcases addRxSubscription_eq s.server ⟨port, ipType, idList.getD []⟩ o.addRxSubscription with
    ⟨hsame, hnot⟩ | ⟨hany, heq⟩
  · rw [if_pos hnot, hsame]
    exact ⟨iff_of_false nofun nofun, fun _ _ => Kept.refl none s⟩
  rw [heq, if_neg (not_not.mpr rfl)]
  dsimp only
  by_cases hsock : o.initRxSock = true
  · rw [if_pos hsock]
    exact ⟨iff_of_true rfl rfl, nofun⟩
  rw [if_neg hsock]
  rcases delRxSubscription_added hany _ rfl o.delRxSubscription with ⟨-, -, hnot⟩ | ⟨-, hdeleted⟩
  · rw [if_pos hnot]
    exact ⟨iff_of_false nofun nofun, fun _ hundone =>
      absurd (hundone _ List.mem_cons_self) hnot⟩
  · rw [hdeleted, if_neg (not_not.mpr rfl)]
    exact ⟨iff_of_false nofun nofun, fun _ _ => Kept.of_server rfl fun _ => rfl⟩

/-! ## Event flows -/

/-- What the creation of an event flow passes. -/
theorem initTxEventFlow_passed (o : Outcomes) (s : Radio) (ipType serviceId port : Nat) :
    let r := initTxEventFlow o s ipType serviceId port
    let e := eventReplies o s.server (flowInfo .event ipType serviceId port 0)
    (r.2.object.isSome = true ↔ e.Made o) ∧
      ((r.2.error = .SUCCESS ↔ r.2.object.isSome = true) ↔ e.Regular o) := by
  dsimp only
  unfold initTxEventFlow eventReplies EventReplies.Made EventReplies.Regular Reply.Agrees
  dsimp only
  by_cases hstatus : (registerFlow s.server (flowInfo .event ipType serviceId port 0)
      o.registerEvent).2.status = .SUCCESS
  · rw [if_neg (not_not.mpr hstatus)]
    by_cases hsock : o.initTxEventSock = true
    · rw [if_pos hsock]
      simp [hstatus, hsock]
    · rw [if_neg hsock]
      by_cases hundone : (deregisterFlow (registerFlow s.server
          (flowInfo .event ipType serviceId port 0) o.registerEvent).1
          (flowInfo .event ipType serviceId port 0) (State.toByte (registerFlow s.server
            (flowInfo .event ipType serviceId port 0) o.registerEvent).2.flowId)
          o.deregisterEvent).2.status = .SUCCESS <;>
        simp [hstatus, hsock, hundone]
  · rw [if_pos hstatus]
    simp [hstatus]

/-- A request for an event flow or a TCP socket is about the event flows. -/
theorem table_of_not_sps {kind : Kind} {ipType serviceId port : Nat} {tb : Table}
    (hkind : kind ≠ .sps) (h : (flowInfo kind ipType serviceId port 0).table? = some tb) :
    tb = .evt := by
  have hport := port_ne_zero (fun hsps => absurd hsps hkind) h
  rw [table?_flowInfo hport] at h
  cases kind with
  | sps => exact absurd rfl hkind
  | event | tcp => exact (Option.some.inj h).symm

/-- It touches the event flows only, and none that was there. -/
theorem initTxEventFlow_kept (o : Outcomes) (ipType serviceId port : Nat)
    (hrange : ∀ k ∈ s.server.flowIds .evt, Table.base .evt ≤ k) :
    let r := initTxEventFlow o s ipType serviceId port
    Kept (some .event) s r.1 ∧
      (r.2.object = none → (∀ status ∈ r.2.undone, status = .SUCCESS) → Kept none s r.1) ∧
      (r.2.object.isSome = true → r.2.undone = [] ∧
        r.1.server.flows.evtFlows ≠ s.server.flows.evtFlows) := by
  dsimp only
  unfold initTxEventFlow
  dsimp only
  rcases registerFlow_eq s.server (flowInfo .event ipType serviceId port 0) o.registerEvent with
    ⟨hsame, hnot⟩ | ⟨tb, id, error, htable, hnext, heq⟩
  · rw [if_pos hnot, hsame]
    exact ⟨Kept.refl _ s, fun _ _ => Kept.refl _ s, nofun⟩
  obtain rfl := table_of_not_sps (by decide) htable
  rw [heq, if_neg (not_not.mpr rfl)]
  dsimp only
  have hregistered (client : Client) (hsubs : client.rxSubscriptions = s.client.rxSubscriptions)
      (hsps : client.spsFlows = s.client.spsFlows)
      (htcp : client.tcpSockets = s.client.tcpSockets) :
      Kept (some .event) s
        ⟨registeredFlow s.server (flowInfo .event ipType serviceId port 0) .evt id, client⟩ :=
    ⟨rfl, hsubs, fun _ => ⟨rfl, hsps⟩, fun h => absurd rfl h, htcp⟩
  by_cases hsock : o.initTxEventSock = true
  · rw [if_pos hsock]
    refine ⟨hregistered _ rfl rfl rfl, nofun, fun _ => ⟨rfl, fun hsame => ?_⟩⟩
    have hget := congrArg (·.get? id) hsame
    have hfree : s.server.flows.evtFlows.get? id = none := nextId_free hnext
    rw [show (registeredFlow s.server _ .evt id).flows.evtFlows =
      (s.server.flows.evtFlows).set id _ from rfl, hfree, Assoc.Map.get?_set_self] at hget
    cases hget
  · rw [if_neg hsock]
    rcases deregisterFlow_cases htable hnext hrange rfl o.deregisterEvent with
      ⟨hsame, hnot⟩ | ⟨hstatus, hvec, htables⟩
    · rw [hsame]
      exact ⟨hregistered _ rfl rfl rfl, fun _ hundone =>
        absurd (hundone _ List.mem_cons_self) hnot, nofun⟩
    · have hkept : Kept none s { s with server := _ } := Kept.of_server hvec htables
      exact ⟨hkept.mono, fun _ _ => hkept, nofun⟩

theorem honest_createTxEventFlow (o : Outcomes) (ipType serviceId port : Nat)
    (hrange : ∀ k ∈ s.server.flowIds .evt, Table.base .evt ≤ k) :
    Honest none s (initTxEventFlow o s ipType serviceId port).1
        (initTxEventFlow o s ipType serviceId port).2 ↔
      (eventReplies o s.server (flowInfo .event ipType serviceId port 0)).Regular o := by
  obtain ⟨-, hregular⟩ := initTxEventFlow_passed o s ipType serviceId port
  obtain ⟨-, hundone, -⟩ := initTxEventFlow_kept o ipType serviceId port hrange
  rw [← hregular]
  exact ⟨Honest.truthful, fun htruthful => ⟨htruthful, hundone⟩⟩

/-! ## SPS flows -/

namespace SpsVariables

/-- What is passed for the SPS flow. -/
def passedSps (v : SpsVariables) : Passed Flow :=
  ⟨v.txSpsFlow, if .SUCCESS = v.spsStatus then .SUCCESS else v.ec, v.spsUndone⟩

def passedEvent (v : SpsVariables) : Passed Flow :=
  ⟨v.txEventFlow, if .SUCCESS = v.eventStatus then .SUCCESS else v.ec, v.eventUndone⟩

end SpsVariables

theorem createTxSpsFlowSync_eq (o : Outcomes) (s : Radio) (ipType serviceId spsSrcPort : Nat)
    (eventSrcPort : Option Nat) :
    createTxSpsFlowSync o s ipType serviceId spsSrcPort eventSrcPort =
      let r := initTxSpsFlow o s ipType serviceId spsSrcPort eventSrcPort
      (r.1, r.2.passedSps, r.2.passedEvent) := rfl

/-- The SPS flow by itself. -/
theorem initTxSpsFlow₁_cases (o : Outcomes) (s : Radio) (ipType serviceId : Nat) {spsSrcPort : Nat}
    (hport : spsSrcPort ≠ 0) (eventSrcPort : Option Nat) :
    let registered := (registerFlow s.server
      (flowInfo .sps ipType serviceId spsSrcPort (eventSrcPort.getD 0)) o.registerSps).2
    let eventStatus := if eventSrcPort.isSome then Status.FAILED else .SUCCESS
    let r := initTxSpsFlow₁ o s ipType serviceId spsSrcPort eventSrcPort
    (registered.status ≠ .SUCCESS ∧
      r = (s, ⟨none, none, .FAILED, eventStatus, registered.error, [], []⟩, false)) ∨
    (registered.status = .SUCCESS ∧ o.initTxSpsSock = true ∧ Kept (some .sps) s r.1 ∧
      ∃ flow, r.2 = (⟨some flow, none, .SUCCESS, .SUCCESS, registered.error, [], []⟩, true)) ∨
    (registered.status = .SUCCESS ∧ o.initTxSpsSock = false ∧ Kept (some .sps) s r.1 ∧
      ∃ ec status, ec ≠ .SUCCESS ∧ (status = .SUCCESS → Kept none s r.1) ∧
        r.2 = (⟨none, none, .FAILED, eventStatus, ec, [status], []⟩, true)) := by
  dsimp only
  unfold initTxSpsFlow₁
  dsimp only
  have htable : (flowInfo .sps ipType serviceId spsSrcPort (eventSrcPort.getD 0)).table? =
      some .sps := table?_flowInfo hport
  generalize flowInfo .sps ipType serviceId spsSrcPort (eventSrcPort.getD 0) = request at htable ⊢
  rcases registerFlow_eq s.server request o.registerSps with
    ⟨hsame, hnot⟩ | ⟨tb, id, error, h₁, hnext, heq⟩
  · rw [if_pos hnot, hsame]
    exact Or.inl ⟨hnot, rfl⟩
  obtain rfl : tb = .sps := Option.some.inj (h₁.symm.trans htable)
  rw [heq, if_neg (not_not.mpr rfl)]
  dsimp only
  have hregistered (client : Client) (hsubs : client.rxSubscriptions = s.client.rxSubscriptions)
      (hevent : client.eventFlows = s.client.eventFlows)
      (htcp : client.tcpSockets = s.client.tcpSockets) :
      Kept (some .sps) s ⟨registeredFlow s.server request .sps id, client⟩ :=
    ⟨rfl, hsubs, fun h => absurd rfl h, fun _ => ⟨rfl, hevent⟩, htcp⟩
  refine Or.inr ?_
  by_cases hsock : o.initTxSpsSock = true
  · rw [if_pos hsock]
    exact Or.inl ⟨rfl, hsock, hregistered _ rfl rfl rfl, _, rfl⟩
  · rw [if_neg hsock]
    refine Or.inr ⟨rfl, Bool.eq_false_iff.mpr hsock, ?_⟩
    have hec (error : ErrorCode) :
        (if .SUCCESS ≠ error then error else ErrorCode.GENERIC_FAILURE) ≠ .SUCCESS := by
      split_ifs with herror
      · exact herror.symm
      · nofun
    rcases deregisterFlow_cases htable hnext (fun k _ => Nat.zero_le k) rfl o.deregisterSps with
      ⟨hsame, hnot⟩ | ⟨-, hvec, htables⟩
    · rw [hsame]
      exact ⟨hregistered _ rfl rfl rfl, _, _, hec _, fun hstatus => absurd hstatus hnot, rfl⟩
    · have hkept : Kept none s { s with server := _ } := Kept.of_server hvec htables
      exact ⟨hkept.mono, _, _, hec _, fun _ => hkept, rfl⟩

/-- The event flow that is created behind an SPS flow, in the state that the SPS flow has left. -/
structure EventBehind (o : Outcomes) (e : EventReplies) (s' : Radio) (event : Radio × Passed Flow) :
    Prop where
  made : event.2.object.isSome = true ↔ e.Made o
  regular : (event.2.error = .SUCCESS ↔ event.2.object.isSome = true) ↔ e.Regular o
  kept : Kept (some .event) s' event.1
  undone : event.2.object = none → (∀ status ∈ event.2.undone, status = .SUCCESS) →
    Kept none s' event.1
  added : event.2.object.isSome = true → event.2.undone = [] ∧
    event.1.server.flows.evtFlows ≠ s'.server.flows.evtFlows

theorem eventBehind_initTxEventFlow {s' : Radio} (o : Outcomes) (ipType serviceId port : Nat)
    (hkept : Kept (some .sps) s s') (hrange : ∀ k ∈ s.server.flowIds .evt, Table.base .evt ≤ k) :
    EventBehind o (eventReplies o s.server (flowInfo .event ipType serviceId port 0)) s'
      (initTxEventFlow o s' ipType serviceId port) := by
  have hflows : s'.server.flows.evtFlows = s.server.flows.evtFlows :=
    (hkept.eventFlows (by decide)).1
  have hrange' : ∀ k ∈ s'.server.flowIds .evt, Table.base .evt ≤ k := by
    have hids : s'.server.flowIds .evt = s.server.flowIds .evt :=
      congrArg (fun m => Assoc.keys (Assoc.Map.pairs m)) hflows
    rw [hids]
    exact hrange
  have hreplies : eventReplies o s'.server (flowInfo .event ipType serviceId port 0) =
      eventReplies o s.server (flowInfo .event ipType serviceId port 0) := by
    apply eventReplies_congr
    intro tb htable
    obtain rfl := table_of_not_sps (by decide) htable
    exact hflows
  obtain ⟨hmade, hregular⟩ := initTxEventFlow_passed o s' ipType serviceId port
  rw [hreplies] at hmade hregular
  obtain ⟨hevent, hundone, hadded⟩ := initTxEventFlow_kept o ipType serviceId port hrange'
  exact ⟨hmade, hregular, hevent, hundone, hadded⟩

namespace EventBehind

variable {e : EventReplies} {s' : Radio} {event : Radio × Passed Flow}

theorem regular_of_success (h : EventBehind o e s' event) (herror : .SUCCESS = event.2.error) :
    e.Regular o ↔ event.2.object.isSome = true := by
  rw [← h.regular]
  exact iff_true_left herror.symm

theorem regular_of_error (h : EventBehind o e s' event) (herror : ¬ .SUCCESS = event.2.error) :
    e.Regular o ↔ event.2.object.isSome = false := by
  rw [← h.regular, iff_false_left (Ne.symm herror), Bool.not_eq_true]

/-- An event flow that is not passed must not be there. -/
theorem honest_none (h : EventBehind o e s' event) (hkept : Kept (some .sps) s s')
    {ec : ErrorCode} :
    Honest (some .sps) s event.1 (⟨none, ec, event.2.undone⟩ : Passed Flow) ↔
      ec ≠ .SUCCESS ∧ event.2.object.isSome = false := by
  constructor
  · intro honest
    refine ⟨fun hec => Bool.false_ne_true (honest.truthful.mp hec), ?_⟩
    refine Bool.eq_false_iff.mpr fun hsome => ?_
    obtain ⟨hnil, hne⟩ := h.added hsome
    have hall : ∀ status ∈ event.2.undone, status = .SUCCESS := by
      rw [hnil]
      exact nofun
    have hsame := ((honest.undone rfl hall).eventFlows (by decide)).1
    exact hne (hsame.trans (hkept.eventFlows (by decide)).1.symm)
  · rintro ⟨hec, hnone⟩
    refine ⟨iff_of_false hec nofun, fun _ hall => hkept.trans ?_⟩
    exact (h.undone (Option.not_isSome_iff_eq_none.mp (Bool.eq_false_iff.mp hnone)) hall).mono

/-- Behind an SPS flow that is there. -/
theorem honest_onEventFlow_some (h : EventBehind o e s' event) (hkept : Kept (some .sps) s s')
    (flow : Flow) (error : ErrorCode) :
    let v := SpsVariables.onEventFlow ⟨some flow, none, .SUCCESS, .SUCCESS, error, [], []⟩ event.2
    (Honest (some .event) s event.1 v.passedSps ∧ Honest (some .sps) s event.1 v.passedEvent) ↔
      e.Regular o ∧ (e.Made o ∨ error ≠ .SUCCESS) := by
  dsimp only
  unfold SpsVariables.onEventFlow
  rw [← h.made]
  by_cases herror : .SUCCESS = event.2.error
  · rw [if_pos herror, h.regular_of_success herror]
    constructor
    · rintro ⟨-, honest⟩
      have hsome := honest.truthful.mp rfl
      exact ⟨hsome, Or.inl hsome⟩
    · rintro ⟨hsome, -⟩
      refine ⟨honest_some_iff.mpr rfl, ⟨iff_of_true rfl hsome, fun hnone => ?_⟩⟩
      have hnone : event.2.object = none := hnone
      rw [hnone] at hsome
      cases hsome
  · rw [if_neg herror, h.regular_of_error herror]
    have hec : (if .SUCCESS ≠ error then event.2.error else error) ≠ .SUCCESS ↔
        error ≠ .SUCCESS := by
      split_ifs with hcode
      · exact iff_of_true (Ne.symm herror) hcode.symm
      · rfl
    constructor
    · rintro ⟨-, honest⟩
      obtain ⟨herr, hnone⟩ := (h.honest_none hkept).mp honest
      exact ⟨hnone, Or.inr (hec.mp herr)⟩
    · rintro ⟨hnone, hmade | herr⟩
      · rw [hnone] at hmade
        cases hmade
      · exact ⟨honest_some_iff.mpr rfl, (h.honest_none hkept).mpr ⟨hec.mpr herr, hnone⟩⟩

/-- Behind an SPS flow whose socket did not open. -/
theorem honest_onEventFlow_none (h : EventBehind o e s' event) (hkept : Kept (some .sps) s s')
    {ec : ErrorCode} (hec : ec ≠ .SUCCESS) {status : Status}
    (hundone : status = .SUCCESS → Kept none s s') :
    let v := SpsVariables.onEventFlow ⟨none, none, .FAILED, .FAILED, ec, [status], []⟩ event.2
    (Honest (some .event) s event.1 v.passedSps ∧ Honest (some .sps) s event.1 v.passedEvent) ↔
      e.Regular o ∧ ¬ e.Made o := by
  dsimp only
  unfold SpsVariables.onEventFlow
  rw [← h.made]
  by_cases herror : .SUCCESS = event.2.error
  · rw [if_pos herror, h.regular_of_success herror]
    refine iff_of_false (fun honest => Bool.false_ne_true (honest.1.truthful.mp rfl)) ?_
    rintro ⟨hsome, hnone⟩
    exact hnone hsome
  · rw [if_neg herror, h.regular_of_error herror]
    have hec' : (if .SUCCESS ≠ ec then event.2.error else ec) ≠ .SUCCESS := by
      rw [if_pos hec.symm]
      exact Ne.symm herror
    constructor
    · rintro ⟨-, honest⟩
      obtain ⟨-, hnone⟩ := (h.honest_none hkept).mp honest
      refine ⟨hnone, ?_⟩
      rw [hnone]
      exact Bool.false_ne_true
    · rintro ⟨hnone, -⟩
      refine ⟨(honest_none_iff fun hall => ?_).mpr hec', (h.honest_none hkept).mpr ⟨hec', hnone⟩⟩
      exact (hundone (hall _ List.mem_cons_self)).mono.trans h.kept

end EventBehind

theorem honest_createTxSpsFlow (o : Outcomes) (ipType serviceId : Nat) {spsSrcPort : Nat}
    (hport : spsSrcPort ≠ 0) (eventSrcPort : Option Nat)
    (hrange : ∀ k ∈ s.server.flowIds .evt, Table.base .evt ≤ k) :
    let r := createTxSpsFlowSync o s ipType serviceId spsSrcPort eventSrcPort
    let registered := (registerFlow s.server
      (flowInfo .sps ipType serviceId spsSrcPort (eventSrcPort.getD 0)) o.registerSps).2
    (Honest (eventSrcPort.map fun _ => .event) s r.1 r.2.1 ∧
      (eventSrcPort.isSome → Honest (some .sps) s r.1 r.2.2)) ↔
    if registered.status = .SUCCESS then
      ∀ port ∈ eventSrcPort,
        let e := eventReplies o s.server (flowInfo .event ipType serviceId port 0)
        e.Regular o ∧
          if o.initTxSpsSock then e.Made o ∨ registered.error ≠ .SUCCESS else ¬ e.Made o
    else registered.error ≠ .SUCCESS := by
  dsimp only
  rw [createTxSpsFlowSync_eq]
  unfold initTxSpsFlow
  have hcases := initTxSpsFlow₁_cases o s ipType serviceId hport eventSrcPort
  dsimp only at hcases
  generalize initTxSpsFlow₁ o s ipType serviceId spsSrcPort eventSrcPort = r at hcases ⊢
  generalize (registerFlow s.server (flowInfo .sps ipType serviceId spsSrcPort
    (eventSrcPort.getD 0)) o.registerSps).2 = registered at hcases ⊢
  obtain ⟨s', v, goesOn⟩ := r
  rcases hcases with ⟨hstatus, heq⟩ | ⟨hstatus, hsock, hkept, flow, heq⟩ |
      ⟨hstatus, hsock, hkept, ec, status, hec, hundone, heq⟩
  · obtain ⟨rfl, hv⟩ := Prod.mk.inj heq
    obtain ⟨rfl, rfl⟩ := Prod.mk.inj hv
    rw [if_neg hstatus]
    cases eventSrcPort with
    | none =>
      refine (and_iff_left nofun).trans ?_
      exact honest_none_iff fun _ => Kept.refl _ _
    | some port =>
      have hnone (but : Option Kind) :
          Honest but s' s' (⟨none, registered.error, []⟩ : Passed Flow) ↔
            registered.error ≠ .SUCCESS := honest_none_iff fun _ => Kept.refl _ _
      exact (and_congr (hnone _) ((forall_prop_of_true rfl).trans (hnone _))).trans
        (and_self_iff)
  all_goals
    obtain ⟨rfl, rfl⟩ := Prod.mk.inj heq
    rw [if_pos hstatus]
  · cases eventSrcPort with
    | none => exact iff_of_true ⟨honest_some_iff.mpr rfl, nofun⟩ nofun
    | some port =>
      have hbehind := eventBehind_initTxEventFlow o ipType serviceId port hkept hrange
      simp only [Option.mem_some_iff, forall_eq', hsock, if_true]
      exact (and_congr Iff.rfl (forall_prop_of_true rfl)).trans
        (hbehind.honest_onEventFlow_some hkept flow registered.error)
  · cases eventSrcPort with
    | none =>
      refine iff_of_true ⟨(honest_none_iff fun hall => ?_).mpr hec, nofun⟩ nofun
      exact hundone (hall _ List.mem_cons_self)
    | some port =>
      have hbehind := eventBehind_initTxEventFlow o ipType serviceId port hkept hrange
      simp only [Option.mem_some_iff, forall_eq', hsock]
      exact (and_congr Iff.rfl (forall_prop_of_true rfl)).trans
        (hbehind.honest_onEventFlow_none hkept hec hundone)

/-! ## TCP sockets -/

theorem honest_createCv2xTcpSocket (o : Outcomes) (serviceId localPort : Nat)
    (hrange : ∀ k ∈ s.server.flowIds .evt, Table.base .evt ≤ k) :
    let r := createCv2xTcpSocketSync o s serviceId localPort
    Honest none s r.1 r.2 ↔
      (o.initTcpSock = true → s.client.isTcpSocketPresent serviceId = false →
        (addRxSubscription s.server ⟨localPort, trafficIp, [serviceId]⟩ o.addRxSubscription).2 =
          .SUCCESS →
        let e := eventReplies o s.server (flowInfo .tcp trafficIp serviceId localPort 0)
        if e.registered.status = .SUCCESS then
          if s.client.tcpSockets.get? (State.toByte e.registered.flowId) = none then
            e.registered.error = .SUCCESS
          else e.deregistered.error ≠ .SUCCESS
        else ¬ o.delRxSubscription.Serves) := by
  dsimp only
  unfold createCv2xTcpSocketSync
  have hdone {ec : ErrorCode} (hec : ec ≠ .SUCCESS) :
      Honest none s s (⟨none, ec, []⟩ : Passed Flow) :=
    (honest_none_iff fun _ => Kept.refl none s).mpr hec
  by_cases hsock : o.initTcpSock = false
  · rw [if_pos hsock, hsock]
    exact iff_of_true (hdone (by decide)) nofun
  rw [if_neg hsock]
  by_cases hpresent : s.client.isTcpSocketPresent serviceId = true
  · rw [if_pos hpresent, hpresent]
    exact iff_of_true (hdone (by decide)) nofun
  rw [if_neg hpresent]
  dsimp only
  generalize (⟨localPort, trafficIp, [serviceId]⟩ : RxSubscription) = rx
  rcases addRxSubscription_eq s.server rx o.addRxSubscription with ⟨hsame, hnot⟩ | ⟨hany, heq⟩
  · rw [if_pos hnot, hsame, rxSubscriptionError, if_pos hnot]
    exact iff_of_true (hdone (by decide)) fun _ _ h => absurd h hnot
  have hkind (tb : Table)
      (htable : (flowInfo .tcp trafficIp serviceId localPort 0).table? = some tb) : tb = .evt :=
    table_of_not_sps (by decide) htable
  generalize flowInfo .tcp trafficIp serviceId localPort 0 = request at hkind ⊢
  have hreplies : eventReplies o s.server request =
      eventReplies o (subscribed s.server rx) request :=
    eventReplies_congr o fun _ _ => rfl
  rw [heq, if_neg (not_not.mpr rfl), hreplies]
  simp only [Bool.not_eq_false] at hsock
  simp only [Bool.not_eq_true] at hpresent
  simp only [hsock, hpresent, forall_const]
  unfold eventReplies
  dsimp only
  rcases registerFlow_eq (subscribed s.server rx) request o.registerEvent with ⟨hsame, hnot⟩ | ⟨tb, id, error, htable, hnext, hreg⟩
  · rw [if_pos hnot, hsame, if_neg hnot]
    rcases delRxSubscription_added hany _ rfl o.delRxSubscription with ⟨hserves, -, hstatus⟩ | ⟨hserves, hdeleted⟩
    · rw [rxSubscriptionError, if_pos hstatus]
      refine iff_of_true ((honest_none_iff fun hall => ?_).mpr (by decide)) hserves
      exact absurd (hall _ List.mem_cons_self) hstatus
    · rw [hdeleted]
      refine iff_of_false (fun h => Bool.false_ne_true (h.truthful.mp rfl)) ?_
      exact not_not.mpr hserves
  obtain rfl := hkind tb htable
  rw [hreg, if_neg (not_not.mpr rfl), if_pos rfl]
  unfold add
  dsimp only
  cases hget : s.client.tcpSockets.get? (State.toByte id) with
  | none =>
    rw [if_pos rfl]
    exact honest_some_iff
  | some socket =>
    rw [if_neg (Option.some_ne_none socket)]
    rcases delRxSubscription_added hany (registeredFlow (subscribed s.server rx) request .evt id)
      rfl o.delRxSubscription with ⟨-, hsame, hstatus⟩ | ⟨-, hdeleted⟩
    · rw [hsame]
      exact honest_none_iff fun hall => absurd (hall _ List.mem_cons_self) hstatus
    · rw [hdeleted]
      dsimp only
      have hflows : ({ registeredFlow (subscribed s.server rx) request .evt id with
          rxSubsVec := s.server.rxSubsVec } : RadioServer).flows =
          (registeredFlow (subscribed s.server rx) request .evt id).flows := rfl
      rw [← deregisterFlow_reply_congr hflows]
      refine honest_none_iff fun hall => ?_
      rcases deregisterFlow_cases htable hnext hrange hflows o.deregisterEvent with
        ⟨-, hnot⟩ | ⟨-, hvec, htables⟩
      · exact absurd (hall _ (List.mem_cons_of_mem _ List.mem_cons_self)) hnot
      · exact Kept.of_server hvec htables

/-! ## Every call -/

/-- A call does what it is to do, on a server after any requests and with any client, exactly when
the answers and the sockets are regular. -/
theorem honest_iff_regular (es : List RadioServer.Event) (client : Client) (o : Outcomes)
    (c : Call) :
    c.Honest o ⟨es.foldl RadioServer.step RadioServer.initial, client⟩ ↔
      c.Regular o ⟨es.foldl RadioServer.step RadioServer.initial, client⟩ := by
  have hinv := RadioServer.inv_run RadioServer.inv_initial es
  have hrange : ∀ k ∈ (es.foldl RadioServer.step RadioServer.initial).flowIds .evt,
      Table.base .evt ≤ k := fun k hk => (hinv.range .evt k hk).1
  generalize es.foldl RadioServer.step RadioServer.initial = server at hrange ⊢
  refine imp_congr_right fun hvalid => ?_
  cases c with
  | createRxSubscription ipType port idList =>
    exact iff_of_true (honest_createRxSubscription o _ ipType port idList) trivial
  | createTxEventFlow ipType serviceId eventSrcPort =>
    exact honest_createTxEventFlow o ipType serviceId eventSrcPort hrange
  | createTxSpsFlow ipType serviceId spsSrcPort eventSrcPort =>
    have hport : spsSrcPort ≠ 0 := by
      have hmin : 1024 ≤ spsSrcPort := hvalid.1
      omega
    exact honest_createTxSpsFlow o ipType serviceId hport eventSrcPort hrange
  | createCv2xTcpSocket serviceId localPort =>
    exact honest_createCv2xTcpSocket o serviceId localPort hrange

end Calls

/-- The socket of the event flow does not open, and `SUCCESS` is passed without an event flow. -/
theorem failed_event_flow_reported : ¬ Call.Honest
    { serviceStub := true
      addRxSubscription := .answered .SUCCESS .SUCCESS
      delRxSubscription := .answered .SUCCESS .SUCCESS
      registerSps := .answered .SUCCESS .SUCCESS
      deregisterSps := .answered .SUCCESS .SUCCESS
      registerEvent := .answered .SUCCESS .SUCCESS
      deregisterEvent := .answered .SUCCESS .SUCCESS
      initRxSock := true
      initTxSpsSock := true
      initTxEventSock := false
      initTcpSock := true }
    ⟨RadioServer.initial, ⟨.empty, 0, .empty, .empty, .empty⟩⟩
    (.createTxSpsFlow 0 1 2000 (some 2001)) := by
  intro h
  have hvalid : Call.Valid (.createTxSpsFlow 0 1 2000 (some 2001)) :=
    ⟨by decide, fun port hport => Option.mem_some_iff.mp hport ▸ by decide⟩
  have htruthful := ((h hvalid).2 rfl).truthful
  exact absurd (htruthful.mp (by decide)) (by decide)

end Creation

end Cv2x

end SatComm
