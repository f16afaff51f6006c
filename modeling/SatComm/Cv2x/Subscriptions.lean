import SatComm.Cv2x.Agreement

/-!
# The subscriptions and flows of the radio server

`Cv2xRadioServer` keeps the receive subscriptions in the order in which they were added, and the
flows in two maps. The two are guarded by a lock each. `onStatusChanged` takes one lock after the
other, so that other requests may come in between.

The server is configured to serve its requests. The subscriptions and flows are compared as a whole;
a request that fails leaves them as they are.
-/

namespace SatComm

namespace Cv2x

inductive Cv2xStatusType
  | INACTIVE | ACTIVE | SUSPENDED | UNKNOWN
deriving DecidableEq, Repr

inductive ErrorCode
  | V2X_ERR_SRV_ID_L2_ADDRS_NOT_COMPATIBLE | NO_SUCH_ELEMENT | MODEM_ERR
deriving DecidableEq, Repr

/-- A subscription without ids is a wildcard. -/
structure RxSubscription where
  portNum : Nat
  ipType : Nat
  ids : List Nat
deriving DecidableEq, Repr

namespace RxSubscription

/-- Whether the subscription keeps a request from being added. -/
def conflicts (itr request : RxSubscription) : Bool :=
  if itr.ipType = request.ipType then
    if request.ids.length = 0 ∨ (request.ids.length > 0 ∧ itr.ids.length = 0) then true
    else if itr.portNum = request.portNum then true
    else if request.ids.length > 0 ∧ itr.ids.length > 0 then
      request.ids.any fun i => itr.ids.any fun j => i = j
    else false
  else false

/-- Whether a request to delete is about the subscription. -/
def Matches (itr request : RxSubscription) : Prop :=
  itr.ipType = request.ipType ∧ itr.portNum = request.portNum

instance (itr request : RxSubscription) : Decidable (itr.Matches request) :=
  inferInstanceAs (Decidable (_ ∧ _))

/-- The subscriptions without the first one that the request is about. -/
def eraseFirst (request : RxSubscription) : List RxSubscription → Option (List RxSubscription)
  | [] => none
  | itr :: rest =>
    if itr.Matches request then some rest else (eraseFirst request rest).map (itr :: ·)

/-- What two subscriptions of a table are to each other. -/
def Compatible (a b : RxSubscription) : Prop :=
  a.ipType = b.ipType →
    a.portNum ≠ b.portNum ∧ a.ids.Disjoint b.ids ∧ a.ids ≠ [] ∧ b.ids ≠ []

end RxSubscription

structure RadioServer where
  rxSubsVec : List RxSubscription
  flows : Cv2xRadioServer
deriving DecidableEq

namespace RadioServer

def initial : RadioServer := ⟨[], ⟨.empty, .empty, 0⟩⟩

def addRxSubscription (s : RadioServer) (request : RxSubscription) :
    RadioServer × Except ErrorCode Unit :=
  if s.rxSubsVec.any (·.conflicts request) then
    (s, .error .V2X_ERR_SRV_ID_L2_ADDRS_NOT_COMPATIBLE)
  else ({ s with rxSubsVec := s.rxSubsVec ++ [request] }, .ok ())

def delRxSubscription (s : RadioServer) (request : RxSubscription) :
    RadioServer × Except ErrorCode Unit :=
  match request.eraseFirst s.rxSubsVec with
  | some rxSubsVec => ({ s with rxSubsVec := rxSubsVec }, .ok ())
  | none => (s, .error .NO_SUCH_ELEMENT)

def registerFlow (s : RadioServer) (request : FlowInfo) : RadioServer × Except ErrorCode Nat :=
  match s.flows.registerFlow request with
  | (flows, some id) => ({ s with flows := flows }, .ok id)
  | (flows, none) => ({ s with flows := flows }, .error .MODEM_ERR)

def deregisterFlow (s : RadioServer) (request : FlowInfo) (flowId : Nat) :
    RadioServer × Except ErrorCode Unit :=
  match s.flows.deregisterFlow request flowId with
  | (flows, true) => ({ s with flows := flows }, .ok ())
  | (flows, false) => ({ s with flows := flows }, .error .MODEM_ERR)

/-- The first half of `onStatusChanged` -/
def onRxStatusChanged (s : RadioServer) (rxStatus : Cv2xStatusType) : RadioServer :=
  if rxStatus ≠ .ACTIVE ∧ rxStatus ≠ .SUSPENDED then { s with rxSubsVec := [] } else s

/-- The second half of `onStatusChanged` -/
def onTxStatusChanged (s : RadioServer) (txStatus : Cv2xStatusType) : RadioServer :=
  if txStatus ≠ .ACTIVE ∧ txStatus ≠ .SUSPENDED then
    { s with flows := { s.flows with spsFlows := .empty, evtFlows := .empty } }
  else s

/-- What is done under a lock. -/
inductive Event
  | addRxSubscription (request : RxSubscription)
  | delRxSubscription (request : RxSubscription)
  | registerFlow (request : FlowInfo)
  | deregisterFlow (request : FlowInfo) (flowId : Nat)
  | onRxStatusChanged (rxStatus : Cv2xStatusType)
  | onTxStatusChanged (txStatus : Cv2xStatusType)
deriving DecidableEq, Repr

def step (s : RadioServer) : Event → RadioServer
  | .addRxSubscription request => (s.addRxSubscription request).1
  | .delRxSubscription request => (s.delRxSubscription request).1
  | .registerFlow request => (s.registerFlow request).1
  | .deregisterFlow request flowId => (s.deregisterFlow request flowId).1
  | .onRxStatusChanged rxStatus => s.onRxStatusChanged rxStatus
  | .onTxStatusChanged txStatus => s.onTxStatusChanged txStatus

/-- The ids of the registered flows. -/
def flowIds (s : RadioServer) (tb : Table) : List Nat := Assoc.keys (s.flows.table tb).pairs

end RadioServer

/-- The first id of a map. -/
def Table.base : Table → Nat
  | .sps => 0
  | .evt => simulationEvtFlowBase

/-- How many flows a map can hold. -/
def Table.max : Table → Nat
  | .sps => simulationSpsMaxNumFlows
  | .evt => simulationNonSpsMaxNumFlows

open RxSubscription RadioServer

/-- The ids of the two maps are apart. -/
theorem Table.eq_of_range {tb tb' : Table} {id : Nat} (h : tb.base ≤ id ∧ id < tb.base + tb.max)
    (h' : tb'.base ≤ id ∧ id < tb'.base + tb'.max) : tb = tb' := by
  have hapart : Table.base .sps + Table.max .sps ≤ Table.base .evt := by decide
  cases tb <;> cases tb' <;> first | rfl | omega

/-- The subscriptions of the server and the requests to change them. -/
structure SubscriptionsOk (s : RadioServer) : Prop where
  pairwise : s.rxSubsVec.Pairwise Compatible
  accepts : ∀ request, (s.addRxSubscription request).2 = .ok () ↔
    (s.rxSubsVec ++ [request]).Pairwise Compatible
  adds : ∀ request, (s.addRxSubscription request).2 = .ok () →
    (s.addRxSubscription request).1 = { s with rxSubsVec := s.rxSubsVec ++ [request] }
  refuses : ∀ request e, (s.addRxSubscription request).2 = .error e →
    (s.addRxSubscription request).1 = s
  deletes : ∀ request xs itr ys, s.rxSubsVec = xs ++ itr :: ys → itr.Matches request →
    s.delRxSubscription request = ({ s with rxSubsVec := xs ++ ys }, .ok ()) ∧
      ∀ other ∈ xs ++ ys, ¬ other.Matches request
  misses : ∀ request, (∀ itr ∈ s.rxSubsVec, ¬ itr.Matches request) →
    s.delRxSubscription request = (s, .error .NO_SUCH_ELEMENT)
  restores : ∀ request request', (s.addRxSubscription request).2 = .ok () →
    request.Matches request' →
    (s.addRxSubscription request).1.delRxSubscription request' = (s, .ok ())

/-- The ids of the registered flows and of the next one. -/
structure FlowsOk (s : RadioServer) : Prop where
  nodup : (s.flowIds .sps ++ s.flowIds .evt).Nodup
  bounded : ∀ tb, (s.flowIds tb).length ≤ tb.max
  registers : ∀ request tb, request.table? = some tb → (s.flowIds tb).length < tb.max →
    ∃ id, (s.registerFlow request).2 = .ok id ∧ id ∉ s.flowIds .sps ++ s.flowIds .evt ∧
      ∀ tb', ((s.registerFlow request).1.flowIds tb').Perm
        (if tb' = tb then id :: s.flowIds tb' else s.flowIds tb')
  refuses : ∀ request tb, request.table? = some tb → tb.max ≤ (s.flowIds tb).length →
    s.registerFlow request = (s, .error .MODEM_ERR)

/-- What every request and every status keeps. -/
structure RadioServer.Inv (s : RadioServer) : Prop where
  pairwise : s.rxSubsVec.Pairwise Compatible
  range : ∀ tb, ∀ id ∈ s.flowIds tb, tb.base ≤ id ∧ id < tb.base + tb.max

/-! ## The subscriptions -/

namespace RxSubscription

theorem conflicts_eq_false {itr request : RxSubscription} :
    itr.conflicts request = false ↔ itr.Compatible request := by
  unfold conflicts Compatible
  by_cases htype : itr.ipType = request.ipType
  · rw [if_pos htype]
    constructor
    · intro h _
      split_ifs at h with hwild hport hids
      · push Not at hwild
        refine ⟨hport, ?_, ?_, ?_⟩
        · intro i hitr hreq
          have hany := List.any_eq_false.mp h i hreq
          exact hany (List.any_eq_true.mpr ⟨i, hitr, decide_eq_true rfl⟩)
        · exact List.ne_nil_of_length_pos hids.2
        · exact List.ne_nil_of_length_pos hids.1
      · exact absurd ⟨by omega, by omega⟩ hids
    · intro h
      obtain ⟨hport, hdisjoint, hitr, hreq⟩ := h htype
      have hitr := List.length_pos_of_ne_nil hitr
      have hreq := List.length_pos_of_ne_nil hreq
      rw [if_neg (by omega), if_neg hport, if_pos ⟨hreq, hitr⟩]
      apply List.any_eq_false.mpr
      intro i hi hany
      obtain ⟨j, hj, heq⟩ := List.any_eq_true.mp hany
      obtain rfl := of_decide_eq_true heq
      exact hdisjoint hj hi
  · rw [if_neg htype]
    exact ⟨fun _ h => absurd h htype, fun _ => rfl⟩

theorem Compatible.symm {a b : RxSubscription} (h : a.Compatible b) : b.Compatible a := by
  intro htype
  obtain ⟨hport, hdisjoint, ha, hb⟩ := h htype.symm
  exact ⟨hport.symm, hdisjoint.symm, hb, ha⟩

/-- A request to delete is about one subscription of the table at most. -/
theorem Compatible.not_matches {a b request : RxSubscription} (h : a.Compatible b)
    (ha : a.Matches request) : ¬ b.Matches request := by
  intro hb
  exact (h (ha.1.trans hb.1.symm)).1 (ha.2.trans hb.2.symm)

theorem eraseFirst_eq_none {request : RxSubscription} {l : List RxSubscription}
    (h : ∀ itr ∈ l, ¬ itr.Matches request) : request.eraseFirst l = none := by
  induction l with
  | nil => rfl
  | cons itr rest ih =>
    rw [eraseFirst, if_neg (h itr List.mem_cons_self),
      ih fun other hother => h other (List.mem_cons_of_mem itr hother)]
    rfl

theorem eraseFirst_append {request itr : RxSubscription} {xs : List RxSubscription}
    (hxs : ∀ other ∈ xs, ¬ other.Matches request) (hitr : itr.Matches request)
    (ys : List RxSubscription) : request.eraseFirst (xs ++ itr :: ys) = some (xs ++ ys) := by
  induction xs with
  | nil => rw [List.nil_append, eraseFirst, if_pos hitr, List.nil_append]
  | cons x xs ih =>
    rw [List.cons_append, eraseFirst, if_neg (hxs x List.mem_cons_self),
      ih fun other hother => hxs other (List.mem_cons_of_mem x hother)]
    rfl

theorem sublist_of_eraseFirst {request : RxSubscription} {l l' : List RxSubscription}
    (h : request.eraseFirst l = some l') : l'.Sublist l := by
  induction l generalizing l' with
  | nil => cases h
  | cons itr rest ih =>
    rw [eraseFirst] at h
    split_ifs at h with hmatches
    · cases h
      exact List.sublist_cons_self itr rest
    · obtain ⟨kept, hkept, rfl⟩ := Option.map_eq_some_iff.mp h
      exact (ih hkept).cons_cons itr

end RxSubscription

namespace RadioServer

variable {s : RadioServer} {tb : Table}

/-- The request fits into the table. -/
theorem no_conflict_iff (hs : s.rxSubsVec.Pairwise Compatible) (request : RxSubscription) :
    s.rxSubsVec.any (·.conflicts request) = false ↔
      (s.rxSubsVec ++ [request]).Pairwise Compatible := by
  rw [List.pairwise_append, List.any_eq_false]
  constructor
  · intro h
    refine ⟨hs, List.pairwise_singleton _ _, ?_⟩
    intro itr hitr other hother
    obtain rfl := List.mem_singleton.mp hother
    exact conflicts_eq_false.mp (Bool.eq_false_iff.mpr (h itr hitr))
  · rintro ⟨-, -, h⟩ itr hitr
    exact Bool.eq_false_iff.mp
      (conflicts_eq_false.mpr (h itr hitr request List.mem_cons_self))

theorem addRxSubscription_cases (s : RadioServer) (request : RxSubscription) :
    (s.rxSubsVec.any (·.conflicts request) = true ∧
      s.addRxSubscription request = (s, .error .V2X_ERR_SRV_ID_L2_ADDRS_NOT_COMPATIBLE)) ∨
    (s.rxSubsVec.any (·.conflicts request) = false ∧
      s.addRxSubscription request = ({ s with rxSubsVec := s.rxSubsVec ++ [request] }, .ok ())) := by
  cases hany : s.rxSubsVec.any (·.conflicts request) with
  | true => exact Or.inl ⟨rfl, by rw [addRxSubscription, if_pos hany]⟩
  | false => exact Or.inr ⟨rfl, by rw [addRxSubscription, hany]; rfl⟩

/-- The subscription that a request to delete is about is the only one. -/
theorem delRxSubscription_of_matches {request itr : RxSubscription} {xs ys : List RxSubscription}
    (hs : (xs ++ itr :: ys).Pairwise Compatible) (hitr : itr.Matches request) :
    request.eraseFirst (xs ++ itr :: ys) = some (xs ++ ys) ∧
      ∀ other ∈ xs ++ ys, ¬ other.Matches request := by
  obtain ⟨-, hys, hxs⟩ := List.pairwise_append.mp hs
  have hbefore : ∀ other ∈ xs, ¬ other.Matches request := fun other hother =>
    (hxs other hother itr List.mem_cons_self).symm.not_matches hitr
  refine ⟨eraseFirst_append hbefore hitr ys, ?_⟩
  intro other hother
  rcases List.mem_append.mp hother with hother | hother
  · exact hbefore other hother
  · exact ((List.pairwise_cons.mp hys).1 other hother).not_matches hitr

theorem subscriptionsOk (hs : s.rxSubsVec.Pairwise Compatible) : SubscriptionsOk s where
  pairwise := hs
  accepts request := by
    rw [← no_conflict_iff hs]
    rcases s.addRxSubscription_cases request with ⟨hany, heq⟩ | ⟨hany, heq⟩ <;>
      simp [hany, heq]
  adds request hok := by
    rcases s.addRxSubscription_cases request with ⟨-, heq⟩ | ⟨-, heq⟩
    · rw [heq] at hok
      cases hok
    · rw [heq]
  refuses request e herror := by
    rcases s.addRxSubscription_cases request with ⟨-, heq⟩ | ⟨-, heq⟩
    · rw [heq]
    · rw [heq] at herror
      cases herror
  deletes request xs itr ys hvec hitr := by
    rw [hvec] at hs
    obtain ⟨herase, hothers⟩ := delRxSubscription_of_matches hs hitr
    refine ⟨?_, hothers⟩
    rw [delRxSubscription, hvec, herase]
  misses request hmisses := by
    rw [delRxSubscription, eraseFirst_eq_none hmisses]
  restores request request' hok hmatches := by
    rcases s.addRxSubscription_cases request with ⟨-, heq⟩ | ⟨hany, heq⟩
    · rw [heq] at hok
      cases hok
    · have hall := (no_conflict_iff hs request).mp hany
      obtain ⟨herase, -⟩ := delRxSubscription_of_matches hall hmatches
      rw [List.append_nil] at herase
      rw [heq, delRxSubscription]
      simp only [herase]

/-! ## The flows -/

theorem length_flowIds (s : RadioServer) (tb : Table) :
    (s.flowIds tb).length = (s.flows.table tb).values.length := by
  rw [flowIds, Assoc.keys, List.length_map, Assoc.Map.values, Assoc.values, List.length_map]

theorem mem_flowIds {id : Nat} : id ∈ s.flowIds tb ↔ ((s.flows.table tb).get? id).isSome :=
  Assoc.Map.mem_keys

theorem nodup_flowIds (s : RadioServer) (tb : Table) : (s.flowIds tb).Nodup :=
  Assoc.Map.nodup_keys _

theorem nextId_eq (s : Cv2xRadioServer) (tb : Table) :
    s.nextId tb = saveFlowInfo (s.table tb) tb.base tb.max := by
  cases tb <;> rfl

/-- A new id is one of the ids of its map. -/
theorem nextId_range {s : Cv2xRadioServer} {id : Nat} (h : s.nextId tb = some id) :
    tb.base ≤ id ∧ id < tb.base + tb.max := by
  rw [nextId_eq, saveFlowInfo] at h
  split_ifs at h
  exact List.mem_range'_1.mp (List.mem_of_find?_eq_some h)

/-- Fewer flows than ids leave an id free. -/
theorem exists_nextId (hroom : (s.flowIds tb).length < tb.max) :
    ∃ id, s.flows.nextId tb = some id := by
  rw [nextId_eq, saveFlowInfo, if_pos (by rwa [← length_flowIds])]
  by_contra hnone
  have hall := List.find?_eq_none.mp (Option.eq_none_iff_forall_ne_some.mpr (not_exists.mp hnone))
  have hsubset : List.range' tb.base tb.max ⊆ s.flowIds tb := by
    intro id hid
    rw [mem_flowIds, Option.isSome_iff_ne_none]
    exact mt Option.isNone_iff_eq_none.mpr (hall id hid)
  have hlength := (List.subperm_of_subset List.nodup_range' hsubset).length_le
  rw [List.length_range'] at hlength
  omega

theorem nextId_eq_none (hfull : tb.max ≤ (s.flowIds tb).length) : s.flows.nextId tb = none := by
  rw [nextId_eq, saveFlowInfo, if_neg (by rw [← length_flowIds]; omega)]

theorem registerFlow_some {request : FlowInfo} {id : Nat} (htable : request.table? = some tb)
    (hnext : s.flows.nextId tb = some id) :
    (s.registerFlow request).2 = .ok id ∧
      (s.registerFlow request).1.rxSubsVec = s.rxSubsVec ∧
      ∀ tb', ((s.registerFlow request).1.flowIds tb').Perm
        (if tb' = tb then id :: s.flowIds tb' else s.flowIds tb') := by
  have hregister : s.flows.registerFlow request =
      ({ s.flows.setTable tb ((s.flows.table tb).set id ⟨request, id, s.flows.registrations⟩) with
        registrations := s.flows.registrations + 1 }, some id) := by
    simp only [Cv2xRadioServer.registerFlow, htable, hnext]
  simp only [RadioServer.registerFlow, hregister, true_and]
  intro tb'
  simp only [flowIds, table_setTable_registrations]
  by_cases htb : tb' = tb
  · subst htb
    rw [if_pos rfl, if_pos rfl]
    have hfresh : id ∉ s.flowIds tb' := by
      rw [mem_flowIds, nextId_free hnext]
      exact Bool.false_ne_true
    apply (List.perm_ext_iff_of_nodup (Assoc.Map.nodup_keys _)
      (List.nodup_cons.mpr ⟨hfresh, s.nodup_flowIds tb'⟩)).mpr
    intro k
    rw [Assoc.Map.mem_keys, Assoc.Map.get?_set, List.mem_cons, mem_flowIds]
    by_cases hk : k = id <;> simp [hk]
  · rw [if_neg htb, if_neg htb]

theorem registerFlow_none {request : FlowInfo}
    (h : ∀ tb, request.table? = some tb → s.flows.nextId tb = none) :
    s.registerFlow request = (s, .error .MODEM_ERR) := by
  have hregister : s.flows.registerFlow request = (s.flows, none) := by
    cases htable : request.table? with
    | none => simp only [Cv2xRadioServer.registerFlow, htable]
    | some tb => simp only [Cv2xRadioServer.registerFlow, htable, h tb htable]
  simp only [RadioServer.registerFlow, hregister]

/-- A registration leaves the subscriptions alone and adds the next id at most. -/
theorem registerFlow_cases (s : RadioServer) (request : FlowInfo) :
    (s.registerFlow request).1 = s ∨
    ∃ tb id, request.table? = some tb ∧ s.flows.nextId tb = some id := by
  by_cases h : ∀ tb, request.table? = some tb → s.flows.nextId tb = none
  · exact Or.inl (by rw [registerFlow_none h])
  · push Not at h
    obtain ⟨tb, htable, hnext⟩ := h
    obtain ⟨id, hid⟩ := Option.ne_none_iff_exists'.mp hnext
    exact Or.inr ⟨tb, id, htable, hid⟩

theorem deregisterFlow_keeps (s : RadioServer) (request : FlowInfo) (flowId : Nat) :
    (s.deregisterFlow request flowId).1.rxSubsVec = s.rxSubsVec ∧
      ∀ tb, (s.deregisterFlow request flowId).1.flowIds tb ⊆ s.flowIds tb := by
  have hflows : (s.deregisterFlow request flowId).1 =
      { s with flows := (s.flows.deregisterFlow request flowId).1 } := by
    unfold RadioServer.deregisterFlow
    split <;> rename_i heq <;> rw [heq]
  rw [hflows]
  refine ⟨rfl, ?_⟩
  intro tb id hid
  rw [mem_flowIds] at hid ⊢
  unfold Cv2xRadioServer.deregisterFlow at hid
  cases htable : request.table? with
  | none => simpa only [htable] using hid
  | some tb' =>
    simp only [htable] at hid
    split at hid
    · exact hid
    · by_cases htb : tb = tb'
      · subst htb
        simp only [table_setTable, if_true, Assoc.Map.get?_erase] at hid
        split_ifs at hid with hne
        · cases hid
        · exact hid
      · simpa only [table_setTable, if_neg htb] using hid

/-! ## Every run -/

namespace Inv

/-- What has the same subscriptions and no new flows. -/
theorem of_subset {s' : RadioServer} (h : Inv s) (hvec : s'.rxSubsVec.Pairwise Compatible)
    (hids : ∀ tb, s'.flowIds tb ⊆ s.flowIds tb) : Inv s' :=
  ⟨hvec, fun tb id hid => h.range tb id (hids tb hid)⟩

theorem addRxSubscription (h : Inv s) (request : RxSubscription) :
    Inv (s.addRxSubscription request).1 := by
  rcases s.addRxSubscription_cases request with ⟨-, heq⟩ | ⟨hany, heq⟩
  · rw [heq]
    exact h
  · rw [heq]
    exact h.of_subset ((no_conflict_iff h.pairwise request).mp hany) fun _ _ hid => hid

theorem delRxSubscription (h : Inv s) (request : RxSubscription) :
    Inv (s.delRxSubscription request).1 := by
  unfold RadioServer.delRxSubscription
  split
  · rename_i rxSubsVec heq
    exact h.of_subset (h.pairwise.sublist (sublist_of_eraseFirst heq)) fun _ _ hid => hid
  · exact h

theorem registerFlow (h : Inv s) (request : FlowInfo) : Inv (s.registerFlow request).1 := by
  rcases s.registerFlow_cases request with heq | ⟨tb, id, htable, hnext⟩
  · rw [heq]
    exact h
  · obtain ⟨-, hvec, hids⟩ := registerFlow_some htable hnext
    refine ⟨hvec ▸ h.pairwise, ?_⟩
    intro tb' k hk
    have hmem := (hids tb').subset hk
    split_ifs at hmem with htb
    · subst htb
      rcases List.mem_cons.mp hmem with rfl | hmem
      · exact nextId_range hnext
      · exact h.range tb' k hmem
    · exact h.range tb' k hmem

theorem step (h : Inv s) (e : Event) : Inv (s.step e) := by
  cases e with
  | addRxSubscription request => exact h.addRxSubscription request
  | delRxSubscription request => exact h.delRxSubscription request
  | registerFlow request => exact h.registerFlow request
  | deregisterFlow request flowId =>
    obtain ⟨hvec, hids⟩ := s.deregisterFlow_keeps request flowId
    refine h.of_subset ?_ hids
    change List.Pairwise _ (s.deregisterFlow request flowId).1.rxSubsVec
    rw [hvec]
    exact h.pairwise
  | onRxStatusChanged rxStatus =>
    change Inv (s.onRxStatusChanged rxStatus)
    unfold RadioServer.onRxStatusChanged
    split
    · exact h.of_subset List.Pairwise.nil fun _ _ hid => hid
    · exact h
  | onTxStatusChanged txStatus =>
    change Inv (s.onTxStatusChanged txStatus)
    unfold RadioServer.onTxStatusChanged
    split
    · refine h.of_subset h.pairwise fun tb id hid => ?_
      cases tb <;> cases hid
    · exact h

theorem length_flowIds_le (h : Inv s) (tb : Table) : (s.flowIds tb).length ≤ tb.max := by
  have hsubset : s.flowIds tb ⊆ List.range' tb.base tb.max := fun id hid =>
    List.mem_range'_1.mpr (h.range tb id hid)
  have hlength := (List.subperm_of_subset (s.nodup_flowIds tb) hsubset).length_le
  rwa [List.length_range'] at hlength

/-- The ids of one map are not those of the other. -/
theorem disjoint (h : Inv s) : (s.flowIds .sps).Disjoint (s.flowIds .evt) := by
  intro id hsps hevt
  exact absurd (Table.eq_of_range (h.range .sps id hsps) (h.range .evt id hevt)) (by decide)

/-- A new id is in no map. -/
theorem nextId_notMem (h : Inv s) {id : Nat} (hnext : s.flows.nextId tb = some id) (tb' : Table) :
    id ∉ s.flowIds tb' := by
  intro hid
  obtain rfl := Table.eq_of_range (nextId_range hnext) (h.range tb' id hid)
  rw [mem_flowIds, nextId_free hnext] at hid
  exact Bool.false_ne_true hid

theorem flowsOk (h : Inv s) : FlowsOk s where
  nodup := List.nodup_append'.mpr ⟨s.nodup_flowIds .sps, s.nodup_flowIds .evt, h.disjoint⟩
  bounded := h.length_flowIds_le
  registers request tb htable hroom := by
    obtain ⟨id, hnext⟩ := exists_nextId hroom
    obtain ⟨hok, -, hids⟩ := registerFlow_some htable hnext
    refine ⟨id, hok, ?_, hids⟩
    intro hid
    rcases List.mem_append.mp hid with hid | hid
    · exact h.nextId_notMem hnext .sps hid
    · exact h.nextId_notMem hnext .evt hid
  refuses request tb htable hfull := by
    apply registerFlow_none
    intro tb' htable'
    obtain rfl := Option.some.inj (htable.symm.trans htable')
    exact nextId_eq_none hfull

end Inv

theorem inv_initial : Inv initial :=
  ⟨List.Pairwise.nil, fun tb id hid => by cases tb <;> cases hid⟩

theorem inv_run (h : Inv s) (es : List Event) : Inv (es.foldl RadioServer.step s) := by
  induction es generalizing s with
  | nil => exact h
  | cons e es ih => exact ih (h.step e)

/-- Along every run, two subscriptions of one IP type have different ports, no common id and no
wildcard among them; a request is added where this stays so and deleted where it is; the flows have
different ids, and each gets one while its map has room. -/
theorem subscriptions_and_flows (es : List Event) :
    SubscriptionsOk (es.foldl step initial) ∧ FlowsOk (es.foldl step initial) := by
  have hinv := inv_run inv_initial es
  exact ⟨subscriptionsOk hinv.pairwise, hinv.flowsOk⟩

end RadioServer

end Cv2x

end SatComm
