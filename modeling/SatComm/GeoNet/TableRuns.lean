import SatComm.GeoNet.Neighbors
import SatComm.GeoNet.References

/-!
# Runs of the table in a reused memory

Whatever is called on the location table finds the memory as it is then, and what the keys of the
table point to with it. In a run that leaves what they point to as it was (`Untouched`), the
table is the one with keys by value. So the two results on that table hold of the code there: a
second copy of a packet is dropped, and `NeighborCount_` counts the flagged entries.
-/

namespace SatComm.GeoNet

/-! ## The code -/

/-- The address that a call reads is where the memory has it. -/
def InMemory (memory : Nat → BitVec 8) (key : Nat) : TableEvent → Prop
  | .receive _ p => key = p.keyOffset ∧ readMid memory key = p.mid
  | .update _ _ soPv => readMid memory key = soPv.gnAddr.mid
  | .updateDestination _ _ dePv => readMid memory key = dePv.gnAddr.mid
  | .find _ _ => True
  | .remove _ => True
  | .refresh _ => True

/-- Something that happens, with the memory as it is then. -/
structure Happening where
  memory : Nat → BitVec 8
  /-- Where the packet or the vector has its address. -/
  key : Nat
  event : TableEvent
  placed : InMemory memory key event

def Happening.ofReception (R : Reception) : Happening :=
  ⟨R.buffer, R.packet.keyOffset, .receive R.env R.packet, rfl, R.mid_eq⟩

/-- `RefreshTask` at one node: a node that is too old is erased by its key. -/
def RefTable.purge (lifeTime : Nat) (now : Mid → Nat) (t : RefTable) (n : Nat × LocTableEntry) :
    RefTable :=
  if olderThan (lifeTime * 1000) n.2.lpv.tst.toNat (now n.2.gnAddr.mid) then
    t.erase (readMid t.buffer n.1)
  else t

/-- One round of `RefreshTask`. -/
def RefTable.refresh (lifeTime : Nat) (t : RefTable) (now : Mid → Nat) : RefTable :=
  t.nodes.foldl (RefTable.purge lifeTime now) t

def refStep (cfg : Config) (r : RouterOf RefTable) (H : Happening) : RouterOf RefTable :=
  stepWith RefTable.refresh cfg (r.over H.memory H.key) H.event

/-- The router after a run from the start. -/
def routerAfter (cfg : Config) (Hs : List Happening) : RouterOf RefTable :=
  Hs.foldl (refStep cfg) .started

/-- What `Receive` returns. -/
def receiveResult (cfg : Config) (r : RouterOf RefTable) (R : Reception) : Int :=
  (receive cfg R.env (r.over R.buffer R.packet.keyOffset) R.packet).1

/-- The sequence number that is recorded for `mid`. -/
def recordedAt (cfg : Config) (mid : Mid) (r : RouterOf RefTable) (H : Happening) : Finset Nat :=
  match H.event with
  | .receive env p => numberOf cfg mid p (receive cfg env (r.over H.memory H.key) p).1
  | _ => ∅

/-- `NeighborCount_` is the number of nodes whose `isNeighbor_` is set. -/
def CountsNodes (r : RouterOf RefTable) : Prop :=
  r.neighborCount = r.table.nodes.countP fun n => n.2.isNeighbor

/-- What happens leaves the address that each key points to as it was. -/
def Untouched (r : RouterOf RefTable) (H : Happening) : Prop :=
  ∀ n ∈ r.table.nodes, readMid H.memory n.1 = n.2.gnAddr.mid

/-! ## The other operations -/

namespace Refines

variable {buffer : Nat → BitVec 8} {key : Nat} {t : RefTable} {v : Table}

theorem updateDestination (h : Refines buffer key t v) (lifeTime now : Nat) (raw : Raw) {spv : Spv}
    (hkey : readMid buffer key = spv.gnAddr.mid) :
    Refines buffer key (updateDestination lifeTime t now raw spv).1
      (GeoNet.updateDestination lifeTime v now raw spv).1 := by
  unfold GeoNet.updateDestination
  rcases h.find_cases lifeTime now spv.gnAddr.mid with
    ⟨t', v', hf, hf', hr, hnone⟩ | ⟨e, hf, hf', he⟩
  · rw [hf, hf']
    exact hr.insert rfl hkey hnone
  · have hmid : e.gnAddr.mid = spv.gnAddr.mid := h.mid_of_entries he
    rw [hf, hf']
    simp only
    split
    · exact h.assign hmid (by simp [he])
    · exact h.assign hmid (by simp [he])

theorem remove (h : Refines buffer key t v) (a : Mid) :
    Refines buffer key (remove t a) (GeoNet.remove v a) := by
  have hlookup : EntryMap.lookup t a = EntryMap.lookup v a := h.lookup_eq a
  unfold GeoNet.remove
  rw [hlookup, Table.lookup_eq]
  cases he : v.entries a with
  | none => exact h
  | some e => exact h.erase a

end Refines

/-! ## Refreshing -/

section

variable (lifeTime : Nat) (now : Mid → Nat)

/-- The node is too old for `RefreshTask`. -/
def isOld (n : Nat × LocTableEntry) : Bool :=
  olderThan (lifeTime * 1000) n.2.lpv.tst.toNat (now n.2.gnAddr.mid)

/-- Erasing the address of a node that is too old. -/
def purgeByValue (v : Table) (n : Nat × LocTableEntry) : Table :=
  if isOld lifeTime now n then v.erase n.2.gnAddr.mid else v

/-- The nodes of different entries. -/
def Distinct (ns : List (Nat × LocTableEntry)) : Prop :=
  ns.Pairwise fun n m => n.2.gnAddr.mid ≠ m.2.gnAddr.mid

variable {buffer : Nat → BitVec 8} {key : Nat} {t : RefTable} {v : Table}
  {ns : List (Nat × LocTableEntry)}

theorem Refines.distinct (h : Refines buffer key t v) : Distinct t.nodes := by
  refine List.Pairwise.imp_of_mem ?_ h.sorted
  intro n m hn hm hlt heq
  rw [(h.seen_eq_iff hn _).mpr heq, (h.seen_eq_iff hm _).mpr rfl] at hlt
  exact absurd hlt (lt_irrefl _)

/-- The nodes that are still to be looked at are there. -/
theorem Refines.purge_foldl (h : Refines buffer key t v) (hns : Distinct ns)
    (hthere : ∀ n ∈ ns, v.entries n.2.gnAddr.mid = some n.2 ∧ readMid buffer n.1 = n.2.gnAddr.mid) :
    Refines buffer key (ns.foldl (RefTable.purge lifeTime now) t)
      (ns.foldl (purgeByValue lifeTime now) v) := by
  induction ns generalizing t v with
  | nil => exact h
  | cons n ns ih =>
    obtain ⟨hn, hns⟩ := List.pairwise_cons.mp hns
    obtain ⟨hentry, hread⟩ := hthere n List.mem_cons_self
    rw [List.foldl_cons, List.foldl_cons]
    unfold RefTable.purge purgeByValue isOld
    by_cases hold : olderThan (lifeTime * 1000) n.2.lpv.tst.toNat (now n.2.gnAddr.mid) = true
    · rw [if_pos hold, if_pos hold, h.buffer_eq, hread]
      refine ih (h.erase _) hns fun m hm => ?_
      obtain ⟨hentry', hread'⟩ := hthere m (List.mem_cons_of_mem n hm)
      have hne : m.2.gnAddr.mid ≠ n.2.gnAddr.mid := (hn m hm).symm
      exact ⟨by simpa [Table.erase, hne] using hentry', hread'⟩
    · rw [if_neg hold, if_neg hold]
      exact ih h hns fun m hm => hthere m (List.mem_cons_of_mem n hm)

/-- What is left by value after the nodes `ns`. -/
theorem purgeByValue_foldl (hns : Distinct ns) (a : Mid) :
    (ns.foldl (purgeByValue lifeTime now) v).entries a =
        (if ns.any fun n => n.2.gnAddr.mid == a && isOld lifeTime now n then none
          else v.entries a) ∧
      (ns.foldl (purgeByValue lifeTime now) v).erased a =
        v.erased a +
          if ns.any fun n => n.2.gnAddr.mid == a && isOld lifeTime now n then 1 else 0 := by
  induction ns generalizing v with
  | nil => simp
  | cons n ns ih =>
    obtain ⟨hn, hns⟩ := List.pairwise_cons.mp hns
    obtain ⟨hentries, herased⟩ := ih (v := purgeByValue lifeTime now v n) hns
    rw [List.foldl_cons, hentries, herased, List.any_cons]
    by_cases ha : n.2.gnAddr.mid = a
    · have hrest : (ns.any fun m => m.2.gnAddr.mid == a && isOld lifeTime now m) = false := by
        rw [List.any_eq_false]
        intro m hm
        simp [← ha, (hn m hm).symm]
      cases hold : isOld lifeTime now n with
      | true => simp [hrest, ha, purgeByValue, hold, Table.erase]
      | false => simp [hrest, purgeByValue, hold]
    · have hpurge : (purgeByValue lifeTime now v n).entries a = v.entries a ∧
          (purgeByValue lifeTime now v n).erased a = v.erased a := by
        unfold purgeByValue
        split
        · simp [Table.erase, Ne.symm ha]
        · exact ⟨rfl, rfl⟩
      have hne : (n.2.gnAddr.mid == a) = false := by simpa using ha
      rw [hne, Bool.false_and, Bool.false_or, hpurge.1, hpurge.2]
      exact ⟨rfl, rfl⟩

/-- Some node of `a` is too old exactly if its entry is. -/
theorem Refines.any_isOld (h : Refines buffer key t v) (a : Mid) :
    (t.nodes.any fun n => n.2.gnAddr.mid == a && isOld lifeTime now n) =
      outlived lifeTime v now a := by
  unfold outlived
  rw [Table.lookup_eq]
  cases he : v.entries a with
  | none =>
    rw [List.any_eq_false]
    intro n hn
    have hne : n.2.gnAddr.mid ≠ a := by
      intro hmid
      have := (h.entries a n.2).mpr ⟨n, hn, rfl, hmid⟩
      rw [he] at this
      cases this
    simp [hne]
  | some e =>
    obtain ⟨n, hn, rfl, rfl⟩ := (h.entries a e).mp he
    have hsame : ∀ m ∈ t.nodes, m.2.gnAddr.mid = n.2.gnAddr.mid → m.2 = n.2 := by
      intro m hm hmid
      have := (h.entries n.2.gnAddr.mid m.2).mpr ⟨m, hm, rfl, hmid⟩
      rw [he, Option.some.injEq] at this
      exact this.symm
    rw [Bool.eq_iff_iff, List.any_eq_true]
    constructor
    · rintro ⟨m, hm, hold⟩
      simp only [Bool.and_eq_true, beq_iff_eq] at hold
      rw [isOld, hsame m hm hold.1] at hold
      exact hold.2
    · intro hold
      exact ⟨n, hn, by simpa [isOld] using hold⟩

theorem Refines.refresh (h : Refines buffer key t v) (lifeTime : Nat) (now : Mid → Nat) :
    Refines buffer key (RefTable.refresh lifeTime t now) (GeoNet.refresh lifeTime v now) := by
  have hfold := h.purge_foldl lifeTime now h.distinct fun n hn =>
    ⟨(h.entries _ _).mpr ⟨n, hn, rfl, rfl⟩, h.reads n hn⟩
  have heq : t.nodes.foldl (purgeByValue lifeTime now) v = GeoNet.refresh lifeTime v now := by
    have hpoint := purgeByValue_foldl lifeTime now (v := v) h.distinct
    unfold GeoNet.refresh
    rcases hw : t.nodes.foldl (purgeByValue lifeTime now) v with ⟨entries, erased⟩
    rw [hw] at hpoint
    congr 1
    · funext a
      exact (hpoint a).1.trans (by rw [h.any_isOld])
    · funext a
      exact (hpoint a).2.trans (by rw [h.any_isOld])
  rwa [heq] at hfold

end

/-! ## One step -/

variable {cfg : Config}

variable (cfg) in
theorem related_refStep {r : RouterOf RefTable} {v : Router} (h : Related r v) {H : Happening}
    (hH : Untouched r H) : Related (refStep cfg r H) (tableStep cfg v H.event) := by
  obtain ⟨memory, key, event, placed⟩ := H
  have hover := h.over hH key
  unfold refStep tableStep stepWith
  cases event with
  | receive env p =>
    obtain ⟨-, htable, hcount⟩ := Refines.receive cfg env (r := r.over memory key) placed.2 hover
      h.count
    exact related_of_refines htable hcount
  | find now mid => exact related_of_refines (hover.find _ _ _).2 h.count
  | update now raw soPv => exact related_of_refines (hover.update _ _ _ placed) h.count
  | updateDestination now raw dePv =>
    exact related_of_refines (hover.updateDestination _ _ _ placed) h.count
  | remove mid => exact related_of_refines (hover.remove _) h.count
  | refresh now => exact related_of_refines (hover.refresh _ _) h.count

theorem related_run {Hs : List Happening} {r : RouterOf RefTable} {v : Router} (h : Related r v)
    (hrun : Runs.Along (refStep cfg) Untouched r Hs) :
    Related (Hs.foldl (refStep cfg) r) (runAll cfg v (Hs.map Happening.event)) := by
  induction Hs generalizing r v with
  | nil => exact h
  | cons H Hs ih => exact ih (related_refStep cfg h hrun.1) hrun.2

/-! ## Duplicates -/

/-- `Receive` decides as by value. -/
theorem Related.receiveResult_eq {r : RouterOf RefTable} {v : Router} (h : Related r v)
    {R : Reception} (hR : Undisturbed r R) :
    receiveResult cfg r R = (GeoNet.receive cfg R.env v R.packet).1 :=
  (Refines.receive cfg R.env (r := r.over R.buffer R.packet.keyOffset) R.mid_eq
    (h.over hR R.packet.keyOffset) h.count).1

theorem recorded_eq (mid : Mid) {Hs : List Happening} {r : RouterOf RefTable} {v : Router}
    (h : Related r v) (hrun : Runs.Along (refStep cfg) Untouched r Hs) :
    recorded (refStep cfg) (recordedAt cfg mid) r Hs =
      recorded (tableStep cfg) (recordedBy cfg mid) v (Hs.map Happening.event) := by
  induction Hs generalizing r v with
  | nil => rfl
  | cons H Hs ih =>
    have hthis : recordedAt cfg mid r H = recordedBy cfg mid v H.event := by
      obtain ⟨memory, key, event, placed⟩ := H
      cases event with
      | receive env p =>
        unfold recordedAt recordedBy
        simp only
        rw [(Refines.receive cfg env (r := r.over memory key) placed.2 (h.over hrun.1 key)
          h.count).1]
      | find now mid => rfl
      | update now raw soPv => rfl
      | updateDestination now raw dePv => rfl
      | remove mid => rfl
      | refresh now => rfl
    rw [List.map_cons, recorded, recorded, hthis, ih (related_refStep cfg h hrun.1) hrun.2]

/-- In a run that leaves what the keys point to as it was: the source has an entry when the first
copy comes, the entry is not erased up to the second, and fewer than `MAX_DPL_LEN` other numbers
are recorded for it in between. -/
theorem second_copy_dropped (cfg : Config) {before between : List Happening} {R₁ R₂ : Reception}
    (hrun : Runs.Along (refStep cfg) Untouched .started
      (before ++ Happening.ofReception R₁ :: (between ++ [Happening.ofReception R₂])))
    (hto₁ : addressedToUs cfg R₁.packet = true) (hto₂ : addressedToUs cfg R₂.packet = true)
    (haddr : R₂.packet.soPv.gnAddr = R₁.packet.soPv.gnAddr) (hsn : R₂.packet.sn = R₁.packet.sn)
    (hacc : receiveResult cfg (routerAfter cfg before) R₁ ≠ -1)
    (hentry : ((routerAfter cfg before).table.lookup R₁.packet.mid).isSome = true)
    (hkept : (routerAfter cfg (before ++ Happening.ofReception R₁ ::
        (between ++ [Happening.ofReception R₂]))).table.erased R₁.packet.mid =
      (routerAfter cfg before).table.erased R₁.packet.mid)
    (hfew : ((recorded (refStep cfg) (recordedAt cfg R₁.packet.mid)
      (routerAfter cfg (before ++ [Happening.ofReception R₁])) between).erase R₁.packet.sn).card <
        maxDplLen) :
    receiveResult cfg (routerAfter cfg (before ++ Happening.ofReception R₁ :: between)) R₂ =
      -1 := by
  obtain ⟨hbefore, hfirst, hrest⟩ := (Runs.along_append _ _ _).mp hrun
  obtain ⟨hbetween, hsecond, -⟩ := (Runs.along_append _ _ _).mp hrest
  have hr := related_run related_started hbefore
  have hr₁ := related_refStep cfg hr hfirst
  have hr₂ := related_run hr₁ hbetween
  have hr₃ := related_refStep cfg hr₂ hsecond
  unfold routerAfter at hacc hentry hkept hfew ⊢
  rw [List.foldl_append, List.foldl_cons, hr₂.receiveResult_eq hsecond]
  rw [List.foldl_append, List.foldl_cons, List.foldl_concat, hr₃.table.erased_eq,
    hr.table.erased_eq] at hkept
  rw [List.foldl_concat, recorded_eq _ hr₁ hbetween] at hfew
  rw [hr.receiveResult_eq hfirst] at hacc
  rw [hr.lookup_eq] at hentry
  exact receive_second_copy cfg hto₁ hto₂ haddr hsn hacc hentry hkept hfew

/-- A packet with the sequence number `sn` of the station whose address consists of the octet
7. -/
def gucReception (sn : Nat) : Reception where
  buffer _ := 7
  packet :=
    { gucPacket sn with
      soPv := { (gucPacket sn).soPv with gnAddr := ⟨0, 5, readMid (fun _ => 7) 18⟩ } }
  env := exampleEnv
  mid_eq := rfl

/-- After another packet of the source, with a third one in between. -/
theorem second_copy_dropped_after_packet :
    receiveResult exampleConfig (routerAfter exampleConfig ([.ofReception (gucReception 0)] ++
      Happening.ofReception (gucReception 7) :: [.ofReception (gucReception 8)]))
        (gucReception 7) = -1 := by
  have hrun : Runs.Along (refStep exampleConfig) Untouched .started
      ([.ofReception (gucReception 0)] ++ Happening.ofReception (gucReception 7) ::
        ([.ofReception (gucReception 8)] ++ [.ofReception (gucReception 7)])) := by
    unfold Untouched
    decide +kernel
  exact second_copy_dropped exampleConfig hrun (by decide) (by decide) rfl rfl (by decide +kernel)
    (by decide +kernel) (by decide +kernel) (by decide +kernel)

/-- The first packet of a source and its copy, with nothing in between, are both accepted, and the
entry stays. -/
theorem second_copy_accepted :
    addressedToUs exampleConfig (gucReception 7).packet = true ∧
      receiveResult exampleConfig (routerAfter exampleConfig []) (gucReception 7) = 1 ∧
      ((routerAfter exampleConfig [.ofReception (gucReception 7)]).table.lookup
        (gucReception 7).packet.mid).isSome = true ∧
      (routerAfter exampleConfig [.ofReception (gucReception 7),
        .ofReception (gucReception 7)]).table.erased (gucReception 7).packet.mid = 0 ∧
      receiveResult exampleConfig (routerAfter exampleConfig [.ofReception (gucReception 7)])
        (gucReception 7) = 1 := by
  decide +kernel

/-! ## Neighbours -/

theorem Related.keepsCount_iff {r : RouterOf RefTable} {v : Router} (h : Related r v)
    (e : TableEvent) : KeepsCount cfg r e ↔ KeepsCount cfg v e := by
  have hlookup : ∀ a, EntryMap.lookup r.table a = EntryMap.lookup v.table a := h.lookup_eq
  have hflag : ∀ a, flagged r.table a = flagged v.table a := by
    intro a
    rw [flagged, flagged, hlookup]
  have hnone : ∀ now a, NoneExpired cfg r.table now a ↔ NoneExpired cfg v.table now a := by
    intro now a
    rw [NoneExpired, NoneExpired, hlookup]
  have hnew : ∀ now raw a, ClearedIfNew cfg r.table now raw a ↔
      ClearedIfNew cfg v.table now raw a := by
    intro now raw a
    rw [ClearedIfNew, ClearedIfNew, (h.table.find _ now a).1]
  cases e with
  | receive env p => simp only [KeepsCount, hlookup, hflag]
  | find now mid => exact hnone now mid
  | update now raw soPv => exact and_congr (hnone _ _) (hnew _ _ _)
  | updateDestination now raw dePv => exact and_congr (hnone _ _) (hnew _ _ _)
  | remove mid => simp only [KeepsCount, hflag]
  | refresh now => simp only [KeepsCount, outlived, hlookup, hflag]

theorem related_along {Hs : List Happening} {r : RouterOf RefTable} {v : Router}
    (h : Related r v)
    (hrun : Runs.Along (refStep cfg) (fun r H => Untouched r H ∧ KeepsCount cfg r H.event) r Hs) :
    Related (Hs.foldl (refStep cfg) r) (runAll cfg v (Hs.map Happening.event)) ∧
      Runs.Along (tableStep cfg) (KeepsCount cfg) v (Hs.map Happening.event) := by
  induction Hs generalizing r v with
  | nil => exact ⟨h, trivial⟩
  | cons H Hs ih =>
    obtain ⟨hend, halong⟩ := ih (related_refStep cfg h hrun.1.1) hrun.2
    exact ⟨hend, (h.keepsCount_iff H.event).mp hrun.1.2, halong⟩

/-- The flagged nodes are those of the flagged addresses. -/
theorem Related.ncard_neighbors {r : RouterOf RefTable} {v : Router} (h : Related r v) :
    (neighbors v.table).ncard = r.table.nodes.countP fun n => n.2.isNeighbor := by
  set flaggedNodes := r.table.nodes.filter fun n => n.2.isNeighbor with hnodes
  have hnodup : (flaggedNodes.map fun n => n.2.gnAddr.mid).Nodup := by
    apply List.pairwise_map.mpr
    exact List.Pairwise.sublist List.filter_sublist h.table.distinct
  have hset : neighbors v.table = ((flaggedNodes.map fun n => n.2.gnAddr.mid).toFinset : Set Mid) := by
    ext a
    simp only [neighbors, flagged, Table.lookup_eq, Set.mem_ofPred_eq, Finset.mem_coe,
      List.mem_toFinset, List.mem_map, Option.any_eq_true]
    constructor
    · rintro ⟨e, he, hflag⟩
      obtain ⟨n, hn, rfl, hmid⟩ := (h.table.entries a e).mp he
      exact ⟨n, List.mem_filter.mpr ⟨hn, hflag⟩, hmid⟩
    · rintro ⟨n, hn, hmid⟩
      obtain ⟨hmem, hflag⟩ := List.mem_filter.mp hn
      exact ⟨n.2, (h.table.entries a n.2).mpr ⟨n, hmem, rfl, hmid⟩, hflag⟩
  rw [hset, Set.ncard_coe_finset, List.toFinset_card_of_nodup hnodup, List.length_map,
    List.countP_eq_length_filter]

/-- In every run from the start whose steps all meet the condition, the counter is right in the
state reached. -/
theorem counted_of_keepsCount (cfg : Config) (Hs : List Happening)
    (h : Runs.Along (refStep cfg) (fun r H => Untouched r H ∧ KeepsCount cfg r H.event) .started
      Hs) : CountsNodes (routerAfter cfg Hs) := by
  obtain ⟨hend, halong⟩ := related_along related_started h
  have hcounted := counted_runAll cfg _ halong
  rw [Counted, ← hend.count, hend.ncard_neighbors] at hcounted
  exact hcounted

/-- A beacon, and another one of the same station later. -/
theorem counted_after_beacon :
    CountsNodes (routerAfter exampleConfig [.ofReception (beaconOf 7),
      ⟨fun _ => 7, 0, .find 1000 9, trivial⟩]) := by
  apply counted_of_keepsCount
  refine ⟨⟨?_, ?_⟩, ⟨?_, ?_⟩, trivial⟩
  · intro n hn
    cases hn
  · intro _ _
    rfl
  · unfold Untouched
    decide +kernel
  · have hnone : EntryMap.lookup (refStep exampleConfig .started
        (.ofReception (beaconOf 7))).table 9 = none := by decide +kernel
    intro e he
    rw [hnone] at he
    cases he

/-- Two beacons of one station count twice. -/
theorem not_counted_second_beacon :
    ¬ CountsNodes (routerAfter exampleConfig [.ofReception (beaconOf 7),
      .ofReception (beaconOf 7)]) := by
  unfold CountsNodes
  decide +kernel

end SatComm.GeoNet
