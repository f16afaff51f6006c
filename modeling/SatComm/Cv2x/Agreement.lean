import SatComm.Cv2x.Flows

/-!
# Agreement on the flows

Whenever no task is pending, the flows that the client holds are those that the server has
registered, along every run in which event flows get numbers below 256, a flow is added only after
the flow that had its number is removed, and a flow is closed once. The proof follows each
registration: it is held by the client, or about to be added, or the server has dropped it already.
-/

namespace SatComm

namespace Cv2x

open Runs

/-- A number and the registration that got it. -/
abbrev Token := Nat × Nat

def Flow.token (f : Flow) : Token := (f.flowId, f.registration)

def Registered.token (v : Registered) : Token := (v.flowId, v.registration)

namespace Task

/-- The registration that the task has got for the client. -/
def adds (tb : Table) : Task → Option Token
  | .add c flowId registration | .undo c flowId registration =>
    if c.kind.table = tb then some (flowId, registration) else none
  | _ => none

/-- The flow that the task closes. -/
def closes : Task → Option Flow
  | .deregister f | .closeSock f | .remove f => some f
  | _ => none

/-- The flow that the server has dropped and the client still holds. -/
def leaves : Task → Option Flow
  | .closeSock f => if f.kind = .sps then some f else none
  | .remove f => some f
  | _ => none

/-- The flow that the task closes and the client still holds. -/
def holds : Task → Option Flow
  | .deregister f => some f
  | t => t.leaves

/-- The port of what the task creates. -/
def Ported : Task → Prop
  | .register c => c.kind = .sps → c.port ≠ 0
  | .subscribe c => c.kind ≠ .sps
  | .add c _ _ | .undo c _ _ => c.port ≠ 0
  | _ => True

end Task

namespace State

/-- The registrations of the server. -/
def registered (s : State) (tb : Table) : List Token := (s.server.table tb).values.map (·.token)

/-- The flows that the client holds. -/
def held (s : State) : Table → List Flow
  | .sps => s.spsFlows.values
  | .evt => s.eventFlows.values ++ s.tcpSockets.values

/-- The numbers under which the client holds its flows. -/
def flowIds (s : State) : Table → List Nat
  | .sps => Assoc.keys s.spsFlows.pairs
  | .evt => Assoc.keys s.eventFlows.pairs ++ Assoc.keys s.tcpSockets.pairs

def adding (s : State) (tb : Table) : List Token := s.tasks.filterMap (Task.adds tb)

def leaving (s : State) (tb : Table) : List Token :=
  (s.tasks.filterMap Task.leaves).filterMap fun f =>
    if f.kind.table = tb then some f.token else none

/-- The flows that are being closed. -/
def closing (s : State) : List Flow := s.tasks.filterMap Task.closes

end State

/-- The client and the server agree. -/
structure Agree (s : State) : Prop where
  flows : s.tasks = [] → ∀ tb, (s.flowIds tb).Nodup ∧
    ∀ id, id ∈ s.flowIds tb ↔ ((s.server.table tb).get? id).isSome
  closes : ∀ i f subscribed, s.tasks[i]? = some (.deregister f) →
    (s.registered f.kind.table).Perm
      (f.token :: (s.step (.task i subscribed)).registered f.kind.table) ∧
    ∀ tb ≠ f.kind.table, (s.step (.task i subscribed)).server.table tb = s.server.table tb

/-- The flow is held and nobody is closing it. -/
def Closable (s : State) (f : Flow) : Prop :=
  (s.flows f.kind).get? f.flowId = some f ∧ f.registration ∉ s.closing.map (·.registration)

instance (s : State) (f : Flow) : Decidable (Closable s f) :=
  inferInstanceAs (Decidable (_ ∧ _))

/-- The next step of the task does not lose a flow: a new number fits into a byte, and a flow or
event flow is added where its number is free. -/
def Fits (s : State) : Task → Prop
  | .register c => ∀ tb ∈ c.info.table?, ∀ id ∈ s.server.nextId tb, id < 2 ^ 8
  | .add c flowId _ => c.kind ≠ .tcp → (s.flows c.kind).get? flowId = none
  | .subscribe _ | .undo .. | .deregister _ | .closeSock _ | .remove _ => True

instance (s : State) (t : Task) : Decidable (Fits s t) := by
  cases t <;> unfold Fits <;> infer_instance

/-- Flows are closed once, and no step loses one. -/
def Careful (s : State) : Event → Prop
  | .closeTxFlow registration => ∀ f ∈ s.flow? registration,
      f.kind ≠ .tcp → registration ∉ s.closedSocks → Closable s f
  | .closeCv2xTcpSocket registration => ∀ f ∈ s.flow? registration, f.kind = .tcp → Closable s f
  | .task index _ => ∀ t ∈ s.tasks[index]?, Fits s t
  | .createTxSpsFlow .. | .createTxEventFlow .. | .createCv2xTcpSocket .. => True

instance (s : State) (e : Event) : Decidable (Careful s e) := by
  cases e <;> unfold Careful <;> infer_instance

/-! ## What is known of every registration -/

structure Inv (s : State) : Prop where
  tokens : ∀ tb, (s.registered tb ++ s.leaving tb).Perm ((s.held tb).map Flow.token ++ s.adding tb)
  nodup : ∀ tb, (((s.held tb).map Flow.token ++ s.adding tb).map Prod.snd).Nodup
  fresh : ∀ tb, ∀ x ∈ (s.held tb).map Flow.token ++ s.adding tb, x.2 < s.server.registrations
  flow : ∀ kind id f, (s.flows kind).get? id = some f → f.flowId = id ∧ f.kind = kind ∧ f.port ≠ 0
  server : ∀ tb id v, (s.server.table tb).get? id = some v → v.flowId = id
  closing : (s.closing.map (·.registration)).Nodup
  holds : ∀ t ∈ s.tasks, ∀ f, t.holds = some f → (s.flows f.kind).get? f.flowId = some f
  ported : ∀ t ∈ s.tasks, t.Ported

variable {s : State} {t : Task} {f : Flow} {c : Create} {tb : Table} {kind : Kind}

/-! ## The maps -/

@[simp] theorem table_setTable (s : Cv2xRadioServer) (tb tb' : Table)
    (flows : Assoc.Map Nat Registered) :
    (s.setTable tb flows).table tb' = if tb' = tb then flows else s.table tb' := by
  cases tb <;> cases tb' <;> rfl

@[simp] theorem registrations_setTable (s : Cv2xRadioServer) (tb : Table)
    (flows : Assoc.Map Nat Registered) : (s.setTable tb flows).registrations = s.registrations := by
  cases tb <;> rfl

@[simp] theorem flows_setFlows (s : State) (kind kind' : Kind) (flows : Assoc.Map Nat Flow) :
    (s.setFlows kind flows).flows kind' = if kind' = kind then flows else s.flows kind' := by
  cases kind <;> cases kind' <;> rfl

@[simp] theorem tasks_setFlows (s : State) (kind : Kind) (flows : Assoc.Map Nat Flow) :
    (s.setFlows kind flows).tasks = s.tasks := by
  cases kind <;> rfl

@[simp] theorem server_setFlows (s : State) (kind : Kind) (flows : Assoc.Map Nat Flow) :
    (s.setFlows kind flows).server = s.server := by
  cases kind <;> rfl

/-- The flows of a kind among the flows of its table. -/
theorem held_of_flows (s : State) (kind : Kind) :
    ∃ rest, (s.held kind.table).Perm ((s.flows kind).values ++ rest) ∧
      ∀ flows, ((s.setFlows kind flows).held kind.table).Perm (flows.values ++ rest) ∧
        ∀ tb ≠ kind.table, (s.setFlows kind flows).held tb = s.held tb := by
  cases kind with
  | sps =>
    refine ⟨[], by rw [List.append_nil]; exact List.Perm.refl _, fun flows => ⟨?_, ?_⟩⟩
    · rw [List.append_nil]
      exact List.Perm.refl _
    · intro tb htb
      cases tb with
      | sps => exact absurd rfl htb
      | evt => rfl
  | event =>
    refine ⟨s.tcpSockets.values, List.Perm.refl _, fun flows => ⟨List.Perm.refl _, ?_⟩⟩
    intro tb htb
    cases tb with
    | sps => rfl
    | evt => exact absurd rfl htb
  | tcp =>
    refine ⟨s.eventFlows.values, List.perm_append_comm, fun flows => ⟨List.perm_append_comm, ?_⟩⟩
    intro tb htb
    cases tb with
    | sps => rfl
    | evt => exact absurd rfl htb

/-- The client writes a flow to a free number. -/
theorem held_set (h : (s.flows kind).get? f.flowId = none) :
    ((s.setFlows kind ((s.flows kind).set f.flowId f)).held kind.table).Perm
      (f :: s.held kind.table) := by
  obtain ⟨rest, hheld, hset⟩ := held_of_flows s kind
  refine (hset _).1.trans (((Assoc.Map.values_set h f).append_right rest).trans ?_)
  exact List.Perm.cons f hheld.symm

theorem held_erase (h : (s.flows kind).get? f.flowId = some f) :
    (s.held kind.table).Perm
      (f :: (s.setFlows kind ((s.flows kind).erase f.flowId)).held kind.table) := by
  obtain ⟨rest, hheld, hset⟩ := held_of_flows s kind
  refine hheld.trans (((Assoc.Map.values_erase h).append_right rest).trans ?_)
  exact List.Perm.cons f (hset _).1.symm

/-- A registered flow leaves the server. -/
theorem registered_erase {server : Cv2xRadioServer} {v : Registered} {flowId : Nat}
    (h : (server.table tb).get? flowId = some v) :
    ((server.table tb).values.map Registered.token).Perm
      (v.token :: ((server.table tb).erase flowId).values.map Registered.token) :=
  (Assoc.Map.values_erase h).map _

/-- A registration is counted, and only its own map changes. -/
theorem table_setTable_registrations (server : Cv2xRadioServer) (tb₀ tb : Table)
    (flows : Assoc.Map Nat Registered) (n : Nat) :
    Cv2xRadioServer.table { server.setTable tb₀ flows with registrations := n } tb =
      if tb = tb₀ then flows else server.table tb := by
  rw [← table_setTable]
  cases tb <;> rfl

theorem nextId_free {server : Cv2xRadioServer} {id : Nat} (h : server.nextId tb = some id) :
    (server.table tb).get? id = none := by
  have hfind : ∀ {flows : Assoc.Map Nat Registered} {base max : Nat},
      saveFlowInfo flows base max = some id → flows.get? id = none := by
    intro flows base max hsave
    unfold saveFlowInfo at hsave
    split_ifs at hsave
    have hnone := List.find?_some hsave
    exact Option.isNone_iff_eq_none.mp hnone
  cases tb with
  | sps => exact hfind h
  | evt => exact hfind h

/-- A request with a port is about the map of its kind. -/
theorem table?_flowInfo {ipType serviceId port eventPort : Nat} (hport : port ≠ 0) :
    (flowInfo kind ipType serviceId port eventPort).table? = some kind.table := by
  have hpos : port > 0 := Nat.pos_of_ne_zero hport
  cases kind <;> simp [flowInfo, FlowInfo.table?, Kind.table, hpos]

/-- Only a request with a port is about a map, if that of an SPS flow has its port. -/
theorem port_ne_zero {ipType serviceId port eventPort : Nat} (hsps : kind = .sps → port ≠ 0)
    (h : (flowInfo kind ipType serviceId port eventPort).table? = some tb) : port ≠ 0 := by
  cases kind with
  | sps => exact hsps rfl
  | event | tcp =>
    rintro rfl
    simp [flowInfo, FlowInfo.table?] at h

/-! ## Tasks come and go -/

namespace Inv

theorem of_perm (h : Inv s) {tasks : List Task} (hp : s.tasks.Perm tasks) :
    Inv { s with tasks := tasks } := by
  have hadding : ∀ tb, (s.adding tb).Perm (({ s with tasks := tasks } : State).adding tb) :=
    fun tb => hp.filterMap _
  have hleaving : ∀ tb, (s.leaving tb).Perm (({ s with tasks := tasks } : State).leaving tb) :=
    fun tb => (hp.filterMap _).filterMap _
  refine ⟨fun tb => ?_, fun tb => ?_, fun tb x hx => ?_, h.flow, h.server, ?_, ?_, ?_⟩
  · exact ((hleaving tb).symm.append_left _).trans
      ((h.tokens tb).trans ((hadding tb).append_left _))
  · exact (((hadding tb).append_left _).map _).nodup_iff.mp (h.nodup tb)
  · exact h.fresh tb x (((hadding tb).append_left _).mem_iff.mpr hx)
  · exact ((hp.filterMap _).map _).nodup_iff.mp h.closing
  · exact fun t ht => h.holds t (hp.mem_iff.mpr ht)
  · exact fun t ht => h.ported t (hp.mem_iff.mpr ht)

theorem push (h : Inv { s with tasks := t :: s.tasks }) : Inv (s.push t) :=
  h.of_perm (List.perm_append_singleton t s.tasks).symm

/-- A task goes on as another one that is about the same flow. -/
theorem replace (h : Inv { s with tasks := t :: s.tasks }) {t' : Task}
    (hadds : ∀ tb, t'.adds tb = t.adds tb) (hleaves : t'.leaves = t.leaves)
    (hcloses : t'.closes = t.closes) (hholds : ∀ f, t'.holds = some f → t.holds = some f)
    (hported : t'.Ported) : Inv (s.push t') := by
  refine push ⟨fun tb => ?_, fun tb => ?_, fun tb x hx => ?_, h.flow, h.server, ?_, ?_, ?_⟩
  · have htokens := h.tokens tb
    simp only [State.adding, State.leaving, List.filterMap_cons, hadds, hleaves] at htokens ⊢
    exact htokens
  · have hnodup := h.nodup tb
    simp only [State.adding, List.filterMap_cons, hadds] at hnodup ⊢
    exact hnodup
  · refine h.fresh tb x ?_
    simp only [State.adding, List.filterMap_cons, hadds] at hx ⊢
    exact hx
  · have hclosing := h.closing
    simp only [State.closing, List.filterMap_cons, hcloses] at hclosing ⊢
    exact hclosing
  · rintro u hu f hf
    rcases List.mem_cons.mp hu with rfl | hu
    · exact h.holds t List.mem_cons_self f (hholds f hf)
    · exact h.holds u (List.mem_cons_of_mem t hu) f hf
  · rintro u hu
    rcases List.mem_cons.mp hu with rfl | hu
    · exact hported
    · exact h.ported u (List.mem_cons_of_mem t hu)

/-- A task ends that is about no flow any more. -/
theorem done (h : Inv { s with tasks := t :: s.tasks }) (hadds : ∀ tb, t.adds tb = none)
    (hleaves : t.leaves = none) : Inv s := by
  refine ⟨fun tb => ?_, fun tb => ?_, fun tb x hx => ?_, h.flow, h.server, ?_, ?_, ?_⟩
  · have htokens := h.tokens tb
    simp only [State.adding, State.leaving, List.filterMap_cons, hadds, hleaves] at htokens
    exact htokens
  · have hnodup := h.nodup tb
    simp only [State.adding, List.filterMap_cons, hadds] at hnodup
    exact hnodup
  · refine h.fresh tb x ?_
    simp only [State.adding, List.filterMap_cons, hadds]
    exact hx
  · refine h.closing.sublist (List.Sublist.map _ ?_)
    exact (List.sublist_cons_self t s.tasks).filterMap _
  · exact fun u hu => h.holds u (List.mem_cons_of_mem t hu)
  · exact fun u hu => h.ported u (List.mem_cons_of_mem t hu)

/-- A task starts that is about no flow, or about one that the client and the server still hold. -/
theorem start (h : Inv s) (hadds : ∀ tb, t.adds tb = none) (hleaves : t.leaves = none)
    (hcloses : ∀ f ∈ t.closes, f.registration ∉ s.closing.map (·.registration))
    (hholds : ∀ f, t.holds = some f → (s.flows f.kind).get? f.flowId = some f)
    (hported : t.Ported) : Inv (s.push t) := by
  refine push ⟨fun tb => ?_, fun tb => ?_, fun tb x hx => ?_, h.flow, h.server, ?_, ?_, ?_⟩
  · simp only [State.adding, State.leaving, List.filterMap_cons, hadds, hleaves]
    exact h.tokens tb
  · simp only [State.adding, List.filterMap_cons, hadds]
    exact h.nodup tb
  · simp only [State.adding, List.filterMap_cons, hadds] at hx
    exact h.fresh tb x hx
  · cases hc : t.closes with
    | none =>
      simp only [State.closing, List.filterMap_cons, hc]
      exact h.closing
    | some f =>
      simp only [State.closing, List.filterMap_cons, hc, List.map_cons, List.nodup_cons]
      exact ⟨hcloses f hc, h.closing⟩
  · rintro u hu f hf
    rcases List.mem_cons.mp hu with rfl | hu
    · exact hholds f hf
    · exact h.holds u hu f hf
  · rintro u hu
    rcases List.mem_cons.mp hu with rfl | hu
    · exact hported
    · exact h.ported u hu

/-! ## Who holds a registration -/

theorem closes_of_holds (h : t.holds = some f) : t.closes = some f := by
  cases t with
  | deregister | remove => exact h
  | closeSock g =>
    simp only [Task.holds, Task.leaves, Option.ite_none_right_eq_some] at h
    exact h.2
  | subscribe | register | add | undo => cases h

theorem holds_of_leaves (h : t.leaves = some f) : t.holds = some f := by
  cases t with
  | deregister => cases h
  | closeSock | remove => exact h
  | subscribe | register | add | undo => cases h

theorem mem_held (h : (s.flows f.kind).get? f.flowId = some f) : f ∈ s.held f.kind.table := by
  obtain ⟨rest, hheld, -⟩ := held_of_flows s f.kind
  exact hheld.mem_iff.mpr (List.mem_append_left rest (Assoc.Map.mem_values.mpr ⟨f.flowId, h⟩))

theorem mem_leaving {x : Token} (h : x ∈ s.leaving tb) :
    ∃ t ∈ s.tasks, ∃ f, t.leaves = some f ∧ f.kind.table = tb ∧ x = f.token := by
  obtain ⟨f, hf, hx⟩ := List.mem_filterMap.mp h
  obtain ⟨t, ht, hleaves⟩ := List.mem_filterMap.mp hf
  simp only [Option.ite_none_right_eq_some, Option.some.injEq] at hx
  exact ⟨t, ht, f, hleaves, hx.1, hx.2.symm⟩

/-- A flow that one task closes is not the flow of another one. -/
theorem registration_ne (h : Inv { s with tasks := t :: s.tasks }) (hcloses : t.closes = some f)
    {u : Task} (hu : u ∈ s.tasks) {g : Flow} (hg : u.closes = some g) :
    g.registration ≠ f.registration := by
  have hclosing := h.closing
  simp only [State.closing, List.filterMap_cons, hcloses, List.map_cons,
    List.nodup_cons] at hclosing
  intro heq
  apply hclosing.1
  rw [← heq]
  exact List.mem_map_of_mem (List.mem_filterMap.mpr ⟨u, hu, hg⟩)

/-- The server has a registration that no task has made it drop. -/
theorem registered_of_not_leaving (h : Inv s) {x : Token} (hx : x ∉ s.leaving tb)
    (hmem : x ∈ (s.held tb).map Flow.token ++ s.adding tb) :
    ∃ v, (s.server.table tb).get? x.1 = some v ∧ v.token = x := by
  have hregistered : x ∈ s.registered tb :=
    (List.mem_append.mp ((h.tokens tb).mem_iff.mpr hmem)).resolve_right hx
  obtain ⟨v, hv, rfl⟩ := List.mem_map.mp hregistered
  obtain ⟨id, hid⟩ := Assoc.Map.mem_values.mp hv
  obtain rfl := h.server tb id v hid
  exact ⟨v, hid, rfl⟩

/-- A flow that is about to be closed is registered. -/
theorem registered_of_deregister (h : Inv { s with tasks := .deregister f :: s.tasks }) :
    ∃ v, (s.server.table f.kind.table).get? f.flowId = some v ∧ v.token = f.token := by
  have hheld := h.holds _ List.mem_cons_self f rfl
  refine h.registered_of_not_leaving (x := f.token) ?_ ?_
  · intro hleaving
    obtain ⟨u, hu, g, hg, -, heq⟩ := mem_leaving hleaving
    rcases List.mem_cons.mp hu with rfl | hu
    · cases hg
    · exact h.registration_ne rfl hu (closes_of_holds (holds_of_leaves hg))
        (congrArg Prod.snd heq).symm
  · exact List.mem_append_left _ (List.mem_map_of_mem (mem_held hheld))

/-- A registration that could not be added is registered. -/
theorem registered_of_undo {flowId registration : Nat}
    (h : Inv { s with tasks := .undo c flowId registration :: s.tasks }) :
    ∃ v, (s.server.table c.kind.table).get? flowId = some v ∧
      v.token = (flowId, registration) := by
  have hadding : (flowId, registration) ∈
      ({ s with tasks := .undo c flowId registration :: s.tasks } : State).adding c.kind.table :=
    List.mem_filterMap.mpr ⟨_, List.mem_cons_self, if_pos rfl⟩
  refine h.registered_of_not_leaving (x := (flowId, registration)) ?_
    (List.mem_append_right _ hadding)
  intro hleaving
  obtain ⟨u, hu, g, hg, htable, heq⟩ := mem_leaving hleaving
  have hnodup := h.nodup c.kind.table
  rw [List.map_append, List.nodup_append'] at hnodup
  have hheld := mem_held (h.holds u hu g (holds_of_leaves hg))
  rw [htable] at hheld
  refine hnodup.2.2 (List.mem_map_of_mem (List.mem_map_of_mem hheld)) ?_
  rw [← heq]
  exact List.mem_map_of_mem hadding

/-! ## The steps of a task -/

/-- The server has written a registration under a free number, and the task goes on to add it. -/
theorem registered {id : Nat} (h : Inv s) (hport : c.port ≠ 0)
    (hfree : (s.server.table c.kind.table).get? id = none) :
    Inv { s with
      server := { s.server.setTable c.kind.table ((s.server.table c.kind.table).set id
          ⟨c.info, id, s.server.registrations⟩) with
        registrations := s.server.registrations + 1 }
      tasks := .add c id s.server.registrations :: s.tasks } := by
  refine ⟨fun tb => ?_, fun tb => ?_, fun tb x hx => ?_, h.flow, ?_, h.closing, ?_, ?_⟩
  · have htokens := h.tokens tb
    by_cases htb : tb = c.kind.table
    · subst htb
      have hset := (Assoc.Map.values_set hfree
        ⟨c.info, id, s.server.registrations⟩).map Registered.token
      simp only [State.adding, State.leaving, State.registered, List.filterMap_cons,
        Task.adds, Task.leaves, table_setTable_registrations, if_true] at htokens ⊢
      refine (hset.append_right _).trans ((htokens.cons _).trans ?_)
      exact List.perm_middle.symm
    · simp only [State.adding, State.leaving, State.registered, List.filterMap_cons,
        Task.adds, Task.leaves, table_setTable_registrations, if_neg htb,
        if_neg (Ne.symm htb)] at htokens ⊢
      exact htokens
  · have hnodup := h.nodup tb
    have hfresh := h.fresh tb
    simp only [State.adding, List.filterMap_cons, Task.adds] at hnodup hfresh ⊢
    by_cases htb : c.kind.table = tb
    · rw [if_pos htb]
      refine ((List.perm_middle.map _).nodup_iff).mpr (List.nodup_cons.mpr ⟨?_, hnodup⟩)
      intro hmem
      obtain ⟨x, hx, heq⟩ := List.mem_map.mp hmem
      exact absurd heq (Nat.ne_of_lt (hfresh x hx))
    · rw [if_neg htb]
      exact hnodup
  · simp only [State.adding, List.filterMap_cons, Task.adds] at hx
    have hfresh := h.fresh tb
    by_cases htb : c.kind.table = tb
    · rw [if_pos htb] at hx
      rcases List.mem_cons.mp (List.perm_middle.mem_iff.mp hx) with rfl | hx
      · exact Nat.lt_succ_self _
      · exact Nat.lt_succ_of_lt (hfresh x hx)
    · rw [if_neg htb] at hx
      exact Nat.lt_succ_of_lt (hfresh x hx)
  · intro tb id' v hv
    simp only [table_setTable_registrations] at hv
    split_ifs at hv with htb
    · rw [Assoc.Map.get?_set] at hv
      split_ifs at hv with hid
      · obtain rfl := Option.some.inj hv
        exact hid.symm
      · exact h.server _ id' v hv
    · exact h.server tb id' v hv
  · rintro u hu f hf
    rcases List.mem_cons.mp hu with rfl | hu
    · cases hf
    · exact h.holds u hu f hf
  · rintro u hu
    rcases List.mem_cons.mp hu with rfl | hu
    · exact hport
    · exact h.ported u hu

theorem register (h : Inv { s with tasks := .register c :: s.tasks })
    (hfits : ∀ tb ∈ c.info.table?, ∀ id ∈ s.server.nextId tb, id < 2 ^ 8) (subscribed : Bool) :
    Inv (s.runTask subscribed (.register c)) := by
  have hdone : Inv s := h.done (fun _ => rfl) rfl
  simp only [State.runTask, Cv2xRadioServer.registerFlow]
  cases htable : c.info.table? with
  | none => exact hdone
  | some tb =>
    cases hnext : s.server.nextId tb with
    | none => simpa only [hnext] using hdone
    | some id =>
      have hport : c.port ≠ 0 := port_ne_zero (h.ported _ List.mem_cons_self) htable
      obtain rfl : c.kind.table = tb := Option.some.inj ((table?_flowInfo hport).symm.trans htable)
      have hbyte : State.toByte id = id := Nat.mod_eq_of_lt (hfits _ htable id hnext)
      simp only [hnext, hbyte]
      exact push (hdone.registered hport (nextId_free hnext))

theorem server_erase (h : Inv s) (tb : Table) (flowId : Nat) (tb' : Table) (id : Nat)
    (v : Registered)
    (hv : ((s.server.setTable tb ((s.server.table tb).erase flowId)).table tb').get? id = some v) :
    v.flowId = id := by
  rw [table_setTable] at hv
  split_ifs at hv with htb
  · rw [Assoc.Map.get?_erase] at hv
    split_ifs at hv
    exact h.server tb id v hv
  · exact h.server tb' id v hv

/-- The server finds the flow of a request. -/
theorem deregisterFlow_of_get? {server : Cv2xRadioServer} {request : FlowInfo} {flowId : Nat}
    {v : Registered} (htable : request.table? = some tb)
    (h : (server.table tb).get? flowId = some v) :
    server.deregisterFlow request flowId =
      (server.setTable tb ((server.table tb).erase flowId), true) := by
  simp only [Cv2xRadioServer.deregisterFlow, htable, h]

theorem undo {flowId registration : Nat}
    (h : Inv { s with tasks := .undo c flowId registration :: s.tasks }) (subscribed : Bool) :
    Inv (s.runTask subscribed (.undo c flowId registration)) := by
  obtain ⟨v, hv, htoken⟩ := h.registered_of_undo
  have htable : c.info.table? = some c.kind.table :=
    table?_flowInfo (h.ported _ List.mem_cons_self)
  have hadds : ∀ tb, (Task.undo c flowId registration).adds tb =
      if c.kind.table = tb then some (flowId, registration) else none := fun _ => rfl
  simp only [State.runTask, deregisterFlow_of_get? htable hv]
  refine ⟨fun tb => ?_, fun tb => ?_, fun tb x hx => ?_, h.flow, ?_, h.closing, ?_, ?_⟩
  · have htokens := h.tokens tb
    simp only [State.adding, State.leaving, State.registered, List.filterMap_cons, hadds,
      Task.leaves, table_setTable] at htokens ⊢
    by_cases htb : tb = c.kind.table
    · subst htb
      have herase := registered_erase hv
      rw [htoken] at herase
      simp only [if_true] at htokens ⊢
      refine List.Perm.cons_inv (a := (flowId, registration)) ?_
      exact (herase.symm.append_right _).trans (htokens.trans List.perm_middle)
    · simp only [if_neg htb, if_neg (Ne.symm htb)] at htokens ⊢
      exact htokens
  · refine (h.nodup tb).sublist (List.Sublist.map _ (List.Sublist.append_left ?_ _))
    exact (List.sublist_cons_self _ s.tasks).filterMap _
  · simp only [registrations_setTable]
    refine h.fresh tb x (List.Sublist.subset (List.Sublist.append_left ?_ _) hx)
    exact (List.sublist_cons_self _ s.tasks).filterMap _
  · exact h.server_erase _ _
  · exact fun u hu => h.holds u (List.mem_cons_of_mem _ hu)
  · exact fun u hu => h.ported u (List.mem_cons_of_mem _ hu)

theorem flow_table? (h : Inv s) (hf : (s.flows f.kind).get? f.flowId = some f) :
    f.info.table? = some f.kind.table :=
  table?_flowInfo (h.flow f.kind f.flowId f hf).2.2

/-- The server drops the flow, and the task goes on to remove it. -/
theorem dropped (h : Inv { s with tasks := .deregister f :: s.tasks })
    (hadds : ∀ tb, t.adds tb = none) (hleaves : t.leaves = some f) (hported : t.Ported) :
    Inv { s with
      server := (s.server.deregisterFlow f.info f.flowId).1, tasks := t :: s.tasks } := by
  obtain ⟨v, hv, htoken⟩ := h.registered_of_deregister
  have hheld := h.holds _ List.mem_cons_self f rfl
  have hholds := holds_of_leaves hleaves
  have hcloses := closes_of_holds hholds
  have hadds₀ : ∀ tb, (Task.deregister f).adds tb = none := fun _ => rfl
  have hleaves₀ : (Task.deregister f).leaves = none := rfl
  have hcloses₀ : (Task.deregister f).closes = some f := rfl
  rw [deregisterFlow_of_get? (h.flow_table? hheld) hv]
  refine ⟨fun tb => ?_, fun tb => ?_, fun tb x hx => ?_, h.flow, ?_, ?_, ?_, ?_⟩
  · have htokens := h.tokens tb
    simp only [State.adding, State.leaving, State.registered, List.filterMap_cons, hadds, hleaves,
      hadds₀, hleaves₀, table_setTable] at htokens ⊢
    by_cases htb : tb = f.kind.table
    · subst htb
      have herase := registered_erase hv
      rw [htoken] at herase
      simp only [if_true]
      refine List.perm_middle.trans ?_
      exact (herase.symm.append_right _).trans htokens
    · simp only [if_neg htb, if_neg (Ne.symm htb)] at htokens ⊢
      exact htokens
  · have hnodup := h.nodup tb
    simp only [State.adding, List.filterMap_cons, hadds, hadds₀] at hnodup ⊢
    exact hnodup
  · have hfresh := h.fresh tb x
    simp only [State.adding, List.filterMap_cons, hadds, hadds₀] at hfresh hx
    simp only [registrations_setTable]
    exact hfresh hx
  · exact h.server_erase _ _
  · have hclosing := h.closing
    simp only [State.closing, List.filterMap_cons, hcloses, hcloses₀] at hclosing ⊢
    exact hclosing
  · rintro u hu g hg
    rcases List.mem_cons.mp hu with rfl | hu
    · obtain rfl := Option.some.inj (hholds.symm.trans hg)
      exact hheld
    · exact h.holds u (List.mem_cons_of_mem _ hu) g hg
  · rintro u hu
    rcases List.mem_cons.mp hu with rfl | hu
    · exact hported
    · exact h.ported u (List.mem_cons_of_mem _ hu)

theorem deregister (h : Inv { s with tasks := .deregister f :: s.tasks }) (subscribed : Bool) :
    Inv (s.runTask subscribed (.deregister f)) := by
  simp only [State.runTask]
  cases hkind : f.kind with
  | sps => exact push (h.dropped (fun _ => rfl) (if_pos hkind) trivial)
  | event | tcp => exact push (h.dropped (fun _ => rfl) rfl trivial)

theorem of_created (h : Inv s) (created : List Flow) : Inv { s with created := created } :=
  ⟨h.tokens, h.nodup, h.fresh, h.flow, h.server, h.closing, h.holds, h.ported⟩

theorem of_closedSocks (h : Inv s) (closedSocks : List Nat) :
    Inv { s with closedSocks := closedSocks } :=
  ⟨h.tokens, h.nodup, h.fresh, h.flow, h.server, h.closing, h.holds, h.ported⟩

/-- A new flow is written to a free number. -/
theorem added {flowId registration : Nat}
    (h : Inv { s with tasks := .add c flowId registration :: s.tasks })
    (hfree : (s.flows c.kind).get? flowId = none) :
    Inv (s.setFlows c.kind ((s.flows c.kind).set flowId (c.flow flowId registration))) := by
  have hadds : ∀ tb, (Task.add c flowId registration).adds tb =
      if c.kind.table = tb then some (flowId, registration) else none := fun _ => rfl
  have hleaves : (Task.add c flowId registration).leaves = none := rfl
  -- the registration moves from the tasks to the maps
  have hperm : ∀ tb, ((s.held tb).map Flow.token ++
      ({ s with tasks := .add c flowId registration :: s.tasks } : State).adding tb).Perm
      (((s.setFlows c.kind ((s.flows c.kind).set flowId (c.flow flowId registration))).held
        tb).map Flow.token ++ s.adding tb) := by
    intro tb
    obtain ⟨_, -, hset⟩ := held_of_flows s c.kind
    simp only [State.adding, List.filterMap_cons, hadds]
    by_cases htb : c.kind.table = tb
    · subst htb
      simp only [if_true]
      refine List.perm_middle.trans ?_
      exact ((held_set (f := c.flow flowId registration) hfree).map Flow.token).symm.append_right _
    · simp only [if_neg htb]
      rw [(hset _).2 tb (Ne.symm htb)]
  have hflows : ∀ kind id f, ((s.setFlows c.kind ((s.flows c.kind).set flowId
      (c.flow flowId registration))).flows kind).get? id = some f ↔
        (kind = c.kind ∧ id = flowId ∧ c.flow flowId registration = f) ∨
        (¬(kind = c.kind ∧ id = flowId) ∧ (s.flows kind).get? id = some f) := by
    intro kind id f
    rw [flows_setFlows]
    by_cases hkind : kind = c.kind
    · subst hkind
      rw [if_pos rfl, Assoc.Map.get?_set]
      by_cases hid : id = flowId
      · simp [hid]
      · simp [hid]
    · simp [hkind]
  refine ⟨fun tb => ?_, fun tb => ?_, fun tb x hx => ?_, ?_, ?_, ?_, ?_, ?_⟩
  · have htokens := (h.tokens tb).trans (hperm tb)
    simp only [State.registered, State.leaving, State.adding, List.filterMap_cons, hleaves,
      tasks_setFlows, server_setFlows] at htokens ⊢
    exact htokens
  · have hnodup := ((hperm tb).map Prod.snd).nodup_iff.mp (h.nodup tb)
    simp only [State.adding, tasks_setFlows] at hnodup ⊢
    exact hnodup
  · simp only [State.adding, tasks_setFlows, server_setFlows] at hx ⊢
    exact h.fresh tb x ((hperm tb).mem_iff.mpr hx)
  · intro kind id f hf
    rcases (hflows kind id f).mp hf with ⟨rfl, rfl, rfl⟩ | ⟨-, hf⟩
    · exact ⟨rfl, rfl, h.ported _ List.mem_cons_self⟩
    · exact h.flow kind id f hf
  · rw [server_setFlows]
    exact h.server
  · have hclosing := h.closing
    simp only [State.closing, tasks_setFlows, List.filterMap_cons, Task.closes] at hclosing ⊢
    exact hclosing
  · rw [tasks_setFlows]
    intro u hu f hf
    have hheld := h.holds u (List.mem_cons_of_mem _ hu) f hf
    refine (hflows _ _ _).mpr (Or.inr ⟨?_, hheld⟩)
    rintro ⟨hkind, hid⟩
    rw [← hkind, ← hid] at hfree
    exact Option.some_ne_none f (hheld.symm.trans hfree)
  · rw [tasks_setFlows]
    exact fun u hu => h.ported u (List.mem_cons_of_mem _ hu)

/-- The client forgets a flow that the server has dropped. -/
theorem removed (h : Inv { s with tasks := .remove f :: s.tasks }) : Inv (s.remove f) := by
  have hheld : (s.flows f.kind).get? f.flowId = some f := h.holds _ List.mem_cons_self f rfl
  have hleaves : (Task.remove f).leaves = some f := rfl
  have hadds : ∀ tb, (Task.remove f).adds tb = none := fun _ => rfl
  have hcloses : (Task.remove f).closes = some f := rfl
  obtain ⟨_, -, hset⟩ := held_of_flows s f.kind
  have hperm : ∀ tb, ((s.held tb).map Flow.token).Perm
      ((if f.kind.table = tb then [f.token] else []) ++ ((s.remove f).held tb).map Flow.token) := by
    intro tb
    by_cases htb : f.kind.table = tb
    · subst htb
      rw [if_pos rfl]
      exact (held_erase hheld).map Flow.token
    · rw [if_neg htb, State.remove, (hset _).2 tb (Ne.symm htb)]
      exact List.Perm.refl _
  -- no other task is about a flow under this number
  have hother : ∀ u ∈ s.tasks, ∀ g, u.holds = some g →
      ¬(g.kind = f.kind ∧ g.flowId = f.flowId) := by
    rintro u hu g hg ⟨hkind, hid⟩
    have hheld' := h.holds u (List.mem_cons_of_mem _ hu) g hg
    rw [hkind, hid] at hheld'
    obtain rfl := Option.some.inj (hheld.symm.trans hheld')
    exact h.registration_ne rfl hu (closes_of_holds hg) rfl
  have hsub : ∀ tb, ((s.remove f).held tb).map Flow.token ⊆ (s.held tb).map Flow.token :=
    fun tb x hx => (hperm tb).mem_iff.mpr (List.mem_append_right _ hx)
  have hadding : ∀ tb, (s.remove f).adding tb = s.adding tb := fun tb => by
    rw [State.adding, State.remove, tasks_setFlows, State.adding]
  refine ⟨fun tb => ?_, fun tb => ?_, fun tb x hx => ?_, ?_, ?_, ?_, ?_, ?_⟩
  · have htokens := (h.tokens tb).trans ((hperm tb).append_right _)
    rw [hadding]
    simp only [State.registered, State.leaving, State.adding, List.filterMap_cons, hleaves, hadds,
      State.remove, tasks_setFlows, server_setFlows] at htokens ⊢
    by_cases htb : f.kind.table = tb
    · simp only [if_pos htb] at htokens
      exact (List.perm_middle.symm.trans htokens).cons_inv
    · simp only [if_neg htb] at htokens
      exact htokens
  · rw [hadding]
    have hnodup := (((hperm tb).append_right _).map Prod.snd).nodup_iff.mp (h.nodup tb)
    simp only [State.adding, List.filterMap_cons, hadds, List.append_assoc] at hnodup
    rw [List.map_append] at hnodup
    exact hnodup.of_append_right
  · rw [hadding] at hx
    rw [State.remove, server_setFlows]
    have hfresh := h.fresh tb x
    simp only [State.adding, List.filterMap_cons, hadds] at hfresh
    refine hfresh (List.mem_append.mpr ((List.mem_append.mp hx).imp_left fun hx => hsub tb hx))
  · intro kind id g hg
    rw [State.remove, flows_setFlows] at hg
    split_ifs at hg with hkind
    · rw [Assoc.Map.get?_erase] at hg
      split_ifs at hg
      rw [← hkind] at hg
      exact h.flow kind id g hg
    · exact h.flow kind id g hg
  · rw [State.remove, server_setFlows]
    exact h.server
  · have hclosing := h.closing
    simp only [State.closing, List.filterMap_cons, hcloses, List.map_cons,
      List.nodup_cons] at hclosing
    rw [State.closing, State.remove, tasks_setFlows]
    exact hclosing.2
  · rw [State.remove, tasks_setFlows]
    intro u hu g hg
    rw [flows_setFlows]
    split_ifs with hkind
    · rw [Assoc.Map.get?_erase, if_neg fun hid => hother u hu g hg ⟨hkind, hid⟩, ← hkind]
      exact h.holds u (List.mem_cons_of_mem _ hu) g hg
    · exact h.holds u (List.mem_cons_of_mem _ hu) g hg
  · rw [State.remove, tasks_setFlows]
    exact fun u hu => h.ported u (List.mem_cons_of_mem _ hu)

/-- An SPS flow with an event flow goes on to register that. -/
theorem push_event (h : Inv s) (c : Create) : Inv (match c.event? with
    | none => s
    | some event => s.push (.register event)) := by
  cases hc : c.event? with
  | none => exact h
  | some event =>
    obtain ⟨port, -, rfl⟩ := Option.map_eq_some_iff.mp hc
    refine h.start (fun _ => rfl) rfl ?_ ?_ ?_
    · intro f hf
      cases hf
    · intro f hf
      cases hf
    · intro hsps
      cases hsps

theorem add {flowId registration : Nat}
    (h : Inv { s with tasks := .add c flowId registration :: s.tasks })
    (hfits : Fits s (.add c flowId registration)) (subscribed : Bool) :
    Inv (s.runTask subscribed (.add c flowId registration)) := by
  simp only [State.runTask]
  apply push_event
  have hadded := fun hfree => (h.added hfree).of_created (s.created ++ [c.flow flowId registration])
  unfold State.add
  cases hget : (s.flows c.kind).get? flowId with
  | none => exact hadded hget
  | some g =>
    cases hkind : c.kind with
    | sps | event =>
      have hne : c.kind ≠ .tcp := by
        rw [hkind]
        intro htcp
        cases htcp
      cases (hfits hne).symm.trans hget
    | tcp =>
      have hported : c.port ≠ 0 := h.ported _ List.mem_cons_self
      refine h.replace (fun _ => rfl) rfl rfl ?_ hported
      intro f hf
      cases hf

theorem closeSock (h : Inv { s with tasks := .closeSock f :: s.tasks }) (subscribed : Bool) :
    Inv (s.runTask subscribed (.closeSock f)) := by
  simp only [State.runTask]
  cases hkind : f.kind with
  | sps =>
    have hleaves : (Task.closeSock f).leaves = some f := if_pos hkind
    have hgoes : Inv (s.push (.remove f)) :=
      h.replace (fun _ => rfl) hleaves.symm rfl (fun g hg => hleaves.trans hg) trivial
    exact hgoes.of_closedSocks _
  | event | tcp =>
    have hleaves : (Task.closeSock f).leaves = none := if_neg (by rw [hkind]; nofun)
    exact (h.done (fun _ => rfl) hleaves).of_closedSocks _

theorem remove (h : Inv { s with tasks := .remove f :: s.tasks }) (subscribed : Bool) :
    Inv (s.runTask subscribed (.remove f)) := by
  simp only [State.runTask]
  cases hkind : f.kind with
  | event =>
    have hleaves : (Task.closeSock f).leaves = none := if_neg (by rw [hkind]; nofun)
    refine h.removed.start (fun _ => rfl) hleaves ?_ ?_ trivial
    · rintro g ⟨⟩
      have hclosing := h.closing
      simp only [State.closing, List.filterMap_cons, Task.closes, List.map_cons,
        List.nodup_cons] at hclosing
      rw [State.closing, State.remove, tasks_setFlows]
      exact hclosing.1
    · intro g hg
      cases hleaves.symm.trans hg
  | sps | tcp => exact h.removed

theorem subscribe (h : Inv { s with tasks := .subscribe c :: s.tasks }) (subscribed : Bool) :
    Inv (s.runTask subscribed (.subscribe c)) := by
  have hdone : Inv s := h.done (fun _ => rfl) rfl
  have hkind : c.kind ≠ .sps := h.ported _ List.mem_cons_self
  simp only [State.runTask]
  split_ifs
  · exact hdone
  · exact hdone.start (fun _ => rfl) rfl nofun nofun fun hsps => absurd hsps hkind
  · exact hdone

theorem runTask (h : Inv { s with tasks := t :: s.tasks }) (hfits : Fits s t) (subscribed : Bool) :
    Inv (s.runTask subscribed t) := by
  cases t with
  | subscribe c => exact h.subscribe subscribed
  | register c => exact h.register hfits subscribed
  | add c flowId registration => exact h.add hfits subscribed
  | undo c flowId registration => exact h.undo subscribed
  | deregister f => exact h.deregister subscribed
  | closeSock f => exact h.closeSock subscribed
  | remove f => exact h.remove subscribed

/-- A close is called. -/
theorem close (h : Inv s) (hf : Closable s f) : Inv (s.push (.deregister f)) := by
  refine h.start (fun _ => rfl) rfl ?_ ?_ trivial
  · rintro g ⟨⟩
    exact hf.2
  · rintro g ⟨⟩
    exact hf.1

theorem taken {i : Nat} (h : Inv s) (ht : s.tasks[i]? = some t) :
    Inv { s with tasks := t :: s.tasks.eraseIdx i } := by
  obtain ⟨hi, rfl⟩ := List.getElem?_eq_some_iff.mp ht
  exact h.of_perm (List.getElem_cons_eraseIdx_perm hi).symm

theorem step (h : Inv s) {e : Event} (he : Careful s e) : Inv (s.step e) := by
  cases e with
  | createTxSpsFlow ipType serviceId spsSrcPort eventSrcPort =>
    simp only [State.step, State.createTxSpsFlow]
    split_ifs with hports
    · exact h
    · refine h.start (fun _ => rfl) rfl nofun nofun ?_
      rintro - rfl
      exact hports (Or.inl (by decide))
  | createTxEventFlow ipType serviceId eventSrcPort =>
    exact h.start (fun _ => rfl) rfl nofun nofun nofun
  | createCv2xTcpSocket serviceId localPort =>
    exact h.start (fun _ => rfl) rfl nofun nofun nofun
  | closeTxFlow registration =>
    simp only [State.step, State.closeTxFlow]
    cases hf : s.flow? registration with
    | none => exact h
    | some f =>
      dsimp only
      split_ifs with hopen
      · exact h
      · rw [not_or] at hopen
        exact h.close (he f hf hopen.1 hopen.2)
  | closeCv2xTcpSocket registration =>
    simp only [State.step, State.closeCv2xTcpSocket]
    cases hf : s.flow? registration with
    | none => exact h
    | some f =>
      dsimp only
      split_ifs with hkind
      · exact h.close (he f hf hkind)
      · exact h
  | task i subscribed =>
    simp only [State.step]
    cases ht : s.tasks[i]? with
    | none => exact h
    | some t =>
      exact runTask (s := { s with tasks := s.tasks.eraseIdx i }) (h.taken ht) (he t ht) subscribed

/-! ## Agreement -/

theorem map_flowId_held (h : Inv s) (tb : Table) : (s.held tb).map (·.flowId) = s.flowIds tb := by
  have hkeys : ∀ kind, (s.flows kind).values.map (·.flowId) = Assoc.keys (s.flows kind).pairs :=
    fun kind => Assoc.Map.map_values_eq_keys fun id f hf => (h.flow kind id f hf).1
  cases tb with
  | sps => exact hkeys .sps
  | evt =>
    rw [State.held, List.map_append]
    exact congrArg₂ (· ++ ·) (hkeys .event) (hkeys .tcp)

theorem map_fst_registered (h : Inv s) (tb : Table) :
    (s.registered tb).map Prod.fst = Assoc.keys (s.server.table tb).pairs := by
  rw [State.registered, List.map_map]
  exact Assoc.Map.map_values_eq_keys (h.server tb)

theorem flowIds_perm (h : Inv s) (hidle : s.tasks = []) (tb : Table) :
    (Assoc.keys (s.server.table tb).pairs).Perm (s.flowIds tb) := by
  have htokens := (h.tokens tb).map Prod.fst
  simp only [State.leaving, State.adding, hidle, List.filterMap_nil, List.append_nil] at htokens
  rw [h.map_fst_registered, List.map_map] at htokens
  rw [← h.map_flowId_held]
  exact htokens

/-- A closed flow leaves the server, and no other one does. -/
theorem deregister_one (h : Inv s) {i : Nat} (ht : s.tasks[i]? = some (.deregister f))
    (subscribed : Bool) :
    (s.registered f.kind.table).Perm
      (f.token :: (s.step (.task i subscribed)).registered f.kind.table) ∧
    ∀ tb ≠ f.kind.table, (s.step (.task i subscribed)).server.table tb = s.server.table tb := by
  obtain ⟨v, hv, htoken⟩ :=
    registered_of_deregister (s := { s with tasks := s.tasks.eraseIdx i }) (h.taken ht)
  have htable := h.flow_table? (h.holds _ (List.mem_of_getElem? ht) f rfl)
  have hserver : (s.step (.task i subscribed)).server =
      s.server.setTable f.kind.table ((s.server.table f.kind.table).erase f.flowId) := by
    simp only [State.step, ht, State.runTask]
    split <;> exact congrArg Prod.fst (deregisterFlow_of_get? htable hv)
  constructor
  · rw [State.registered, State.registered, hserver, table_setTable, if_pos rfl, ← htoken]
    exact registered_erase hv
  · intro tb htb
    rw [hserver, table_setTable, if_neg htb]

theorem agree (h : Inv s) : Agree s where
  flows hidle tb := by
    have hperm := h.flowIds_perm hidle tb
    refine ⟨hperm.nodup_iff.mp (Assoc.Map.nodup_keys _), fun id => ?_⟩
    rw [← hperm.mem_iff, Assoc.Map.mem_keys]
  closes _ _ subscribed ht := h.deregister_one ht subscribed

end Inv

theorem inv_initial : Inv initial := by
  refine ⟨fun tb => ?_, fun tb => ?_, fun tb x hx => ?_, nofun, ?_, List.nodup_nil, nofun, nofun⟩
  · cases tb <;> exact List.Perm.refl _
  · cases tb <;> exact List.nodup_nil
  · cases tb <;> cases hx
  · intro tb id v hv
    cases tb <;> cases hv

/-- The client and the server agree along every run that is careful. -/
theorem flows_agree (es : List Event) (h : Along State.step Careful initial es) :
    Agree (es.foldl State.step initial) := by
  apply Inv.agree
  exact h.invariant Inv (fun s e hs he => hs.step he) inv_initial

/-- An SPS flow with an event flow and a TCP socket are created and closed. -/
theorem flows_agree_closed :
    Agree (([.createTxSpsFlow 1 2 1500 (some 1600), .createCv2xTcpSocket 3 1700, .task 0 true,
      .task 0 true, .task 0 true, .task 0 true, .task 0 true, .task 0 true, .task 0 true,
      .closeTxFlow 0, .closeTxFlow 2, .closeCv2xTcpSocket 1, .task 0 true, .task 0 true,
      .task 0 true, .task 0 true, .task 0 true, .task 0 true, .task 0 true,
      .task 0 true] : List Event).foldl State.step initial) :=
  flows_agree _ (by decide)

/-- An SPS flow is created between the close of another one and its removal. It gets the number of
the closed flow, and the client forgets it with that flow. -/
theorem reused_flow_lost : ¬ ∀ es : List Event, Agree (es.foldl State.step initial) := by
  intro h
  have hagree := (h [.createTxSpsFlow 1 2 1500 none, .task 0 true, .task 0 true, .closeTxFlow 0,
    .task 0 true, .createTxSpsFlow 1 3 1501 none, .task 1 true, .task 1 true, .task 0 true,
    .task 0 true]).flows (by decide) .sps
  have hheld := (hagree.2 0).mpr (by decide)
  exact absurd hheld (by decide)

end Cv2x

end SatComm
