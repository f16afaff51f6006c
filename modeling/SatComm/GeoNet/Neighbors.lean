import SatComm.Runs.Along
import SatComm.GeoNet.Duplicates
import SatComm.GeoNet.Simulation

/-!
# Counting neighbours

`NeighborCount_` is only ever increased, once for each beacon or single-hop broadcast received.
It is the number of flagged entries as long as every beacon comes from a station that is not
flagged yet, no flagged entry is erased, and an entry made for another kind of packet finds its
flag cleared: the constructors leave `isNeighbor_` as the memory has it.
-/

namespace SatComm.GeoNet

section

variable {τ : Type} [EntryMap τ] (cfg : Config)

/-- The address has an entry, and its `isNeighbor_` is set. -/
def flagged (t : τ) (mid : Mid) : Bool := (EntryMap.lookup t mid).any LocTableEntry.isNeighbor

/-- The addresses of the flagged entries. -/
def neighbors (t : τ) : Set Mid := { mid | flagged t mid = true }

/-- `NeighborCount_` is the number of flagged entries. -/
def Counted (r : RouterOf τ) : Prop := r.neighborCount = (neighbors r.table).ncard

/-- `Find` at `now` does not find a flagged entry of `mid` expired. -/
def NoneExpired (t : τ) (now : Nat) (mid : Mid) : Prop :=
  ∀ e, EntryMap.lookup t mid = some e → e.isNeighbor = true →
    olderThan (cfg.lifetimeLocTE * 1000000) e.lpv.tst.toNat now = false

/-- An entry that `Update` has to make at `now` finds its flag cleared. -/
def ClearedIfNew (t : τ) (now : Nat) (raw : Raw) (mid : Mid) : Prop :=
  (find cfg.lifetimeLocTE t now mid).1 = none → raw.isNeighbor = false

/-- No lookup of one `Receive` finds the entry of the source expired, with the time stamp it has
before the update or with the one it has afterwards. -/
def Lasts (env : Env) (p : Packet) (e : LocTableEntry) : Prop :=
  (∀ k < 2, olderThan (cfg.lifetimeLocTE * 1000000) e.lpv.tst.toNat (env.now k) = false) ∧
    ∀ k, 2 ≤ k → k < 4 →
      olderThan (cfg.lifetimeLocTE * 1000000) (e.moved p.soPv).lpv.tst.toNat (env.now k) = false

/-- The packet reaches the table. -/
def reachesTable (p : Packet) : Bool := p.isBeacon || addressedToUs cfg p || toForward cfg p

/-- The table is left with the flags it has, but for a beacon of a station that had none. -/
def KeepsCount (r : RouterOf τ) : TableEvent → Prop
  | .receive env p => passes p = true → reachesTable cfg p = true →
    if p.isBeacon then flagged r.table p.mid = false
    else (∃ e, EntryMap.lookup r.table p.mid = some e ∧ Lasts cfg env p e) ∨
      (flagged r.table p.mid = false ∧ env.raw.isNeighbor = false)
  | .find now mid => NoneExpired cfg r.table now mid
  | .update now raw soPv =>
    NoneExpired cfg r.table now soPv.gnAddr.mid ∧ ClearedIfNew cfg r.table now raw soPv.gnAddr.mid
  | .updateDestination now raw dePv =>
    NoneExpired cfg r.table now dePv.gnAddr.mid ∧ ClearedIfNew cfg r.table now raw dePv.gnAddr.mid
  | .remove mid => flagged r.table mid = false
  | .refresh now => ∀ mid, outlived cfg.lifetimeLocTE r.table now mid = true →
    flagged r.table mid = false

end

/-! ## Flags -/

theorem flagged_of_some {t : Table} {mid : Mid} {e : LocTableEntry} (h : t.entries mid = some e) :
    flagged t mid = e.isNeighbor := by
  rw [flagged, Table.lookup_eq, h, Option.any_some]

theorem flagged_of_none {t : Table} {mid : Mid} (h : t.entries mid = none) :
    flagged t mid = false := by
  rw [flagged, Table.lookup_eq, h, Option.any_none]

theorem flagged_put (t : Table) (m mid : Mid) (e : LocTableEntry) :
    flagged (t.put m e) mid = if mid = m then e.isNeighbor else flagged t mid := by
  unfold flagged Table.put
  by_cases h : mid = m
  · subst h
    simp
  · simp [h]

theorem flagged_erase (t : Table) (m mid : Mid) :
    flagged (t.erase m) mid = if mid = m then false else flagged t mid := by
  unfold flagged Table.erase
  by_cases h : mid = m
  · subst h
    simp
  · simp [h]

theorem counted_of_same {r r' : Router} (h : Counted r)
    (hcount : r'.neighborCount = r.neighborCount)
    (hflags : ∀ mid, flagged r'.table mid = flagged r.table mid) : Counted r' := by
  have hset : neighbors r'.table = neighbors r.table := by
    ext mid
    exact (hflags mid).congr_left
  rw [Counted, hcount, hset]
  exact h

/-- One more flag, one more on the count. -/
theorem counted_of_added {r r' : Router} {m : Mid}
    (hcount : r'.neighborCount = r.neighborCount + 1) (hm : flagged r.table m = false)
    (hflags : ∀ mid, flagged r'.table mid = if mid = m then true else flagged r.table mid)
    (h : Counted r) : Counted r' := by
  have hset : neighbors r'.table = insert m (neighbors r.table) := by
    ext mid
    by_cases hmid : mid = m
    · simp [neighbors, hflags, hmid]
    · simp [neighbors, hflags, hmid]
  have hnew : m ∉ neighbors r.table := by simp [neighbors, hm]
  have : Finite Mid := Finite.of_injective BitVec.toFin fun _ _ => BitVec.eq_of_toFin_eq
  rw [Counted, hcount, hset, Set.ncard_insert_of_notMem hnew (Set.toFinite _), h]

/-! ## The table's own operations -/

variable {cfg : Config}

theorem flagged_find {t : Table} {now : Nat} {m : Mid} (h : NoneExpired cfg t now m) (mid : Mid) :
    flagged (find cfg.lifetimeLocTE t now m).2 mid = flagged t mid := by
  obtain ⟨-, hf⟩ | ⟨e, he, ⟨hold, hf⟩ | ⟨-, hf⟩⟩ := find_cases cfg.lifetimeLocTE t now m
  · rw [hf]
  · have hclear : e.isNeighbor = false := by
      by_contra hset
      rw [h e he (by simpa using hset)] at hold
      cases hold
    rw [hf, flagged_erase]
    split
    · rename_i hmid
      rw [hmid, flagged_of_some he, hclear]
    · rfl
  · rw [hf]

/-- After a lookup that loses no flag, writing back an entry with the flag found, or inserting
one with a clear flag, loses none either. -/
theorem flagged_put_of_find {t : Table} {now : Nat} {m : Mid} {e : LocTableEntry}
    (h : NoneExpired cfg t now m)
    (hflag : e.isNeighbor =
      ((find cfg.lifetimeLocTE t now m).1).any LocTableEntry.isNeighbor) (mid : Mid) :
    flagged ((find cfg.lifetimeLocTE t now m).2.put m e) mid = flagged t mid := by
  rw [flagged_put, ← flagged_find h mid]
  split
  · rename_i hmid
    rw [hmid, hflag]
    cases hf : (find cfg.lifetimeLocTE t now m).1 with
    | none => rw [flagged_of_none (find_none hf), Option.any_none]
    | some e' =>
      obtain ⟨he', ht⟩ := find_some hf
      rw [ht, flagged_of_some he', Option.any_some]
  · rfl

theorem flagged_update {t : Table} {now : Nat} {raw : Raw} {lpv : Lpv}
    (h : NoneExpired cfg t now lpv.gnAddr.mid)
    (hnew : ClearedIfNew cfg t now raw lpv.gnAddr.mid) (mid : Mid) :
    flagged (update cfg.lifetimeLocTE t now raw lpv) mid = flagged t mid := by
  unfold update
  split
  · rename_i e t' hf
    have hput := flagged_put_of_find (e := e.moved lpv) h (by rw [hf]; rfl) mid
    rw [hf] at hput
    exact hput
  · rename_i t' hf
    have hclear : raw.isNeighbor = false := hnew (by rw [hf])
    have hput := flagged_put_of_find (e := .ofLpv raw lpv) h (by rw [hf]; exact hclear) mid
    rw [hf] at hput
    exact hput

theorem flagged_updateDestination {t : Table} {now : Nat} {raw : Raw} {spv : Spv}
    (h : NoneExpired cfg t now spv.gnAddr.mid)
    (hnew : ClearedIfNew cfg t now raw spv.gnAddr.mid) (mid : Mid) :
    flagged (updateDestination cfg.lifetimeLocTE t now raw spv).1 mid = flagged t mid := by
  unfold updateDestination
  split
  · rename_i t' hf
    have hclear : raw.isNeighbor = false := hnew (by rw [hf])
    have hput := flagged_put_of_find (e := .ofSpv raw spv) h (by rw [hf]; exact hclear) mid
    rw [hf] at hput
    exact hput
  · rename_i e t' hf
    split
    · have hput := flagged_put_of_find (e := { e with updated := true }) h (by rw [hf]; rfl) mid
      rw [hf] at hput
      exact hput
    · have hput := flagged_put_of_find
        (e :=
          { e with
            updated := true
            lpv :=
              { e.lpv with
                latitude := spv.latitude
                longitude := spv.longitude
                tst := spv.tst } }) h (by rw [hf]; rfl) mid
      rw [hf] at hput
      exact hput

theorem flagged_remove {t : Table} {m : Mid} (h : flagged t m = false) (mid : Mid) :
    flagged (remove t m) mid = flagged t mid := by
  unfold remove
  split
  · rfl
  · rw [Table.erase_eq, flagged_erase]
    split
    · rename_i hmid
      rw [hmid, h]
    · rfl

theorem flagged_refresh {t : Table} {now : Mid → Nat}
    (h : ∀ mid, outlived cfg.lifetimeLocTE t now mid = true → flagged t mid = false) (mid : Mid) :
    flagged (refresh cfg.lifetimeLocTE t now) mid = flagged t mid := by
  by_cases hout : outlived cfg.lifetimeLocTE t now mid = true
  · rw [h mid hout]
    simp [flagged, refresh, hout]
  · simp [flagged, refresh, hout]

theorem LocTableEntry.isDuplicated_lpv (e : LocTableEntry) (sn : Nat) :
    (e.isDuplicated sn).2.lpv = e.lpv := by
  unfold LocTableEntry.isDuplicated
  split <;> rfl

theorem LocTableEntry.isDuplicated_isNeighbor (e : LocTableEntry) (sn : Nat) :
    (e.isDuplicated sn).2.isNeighbor = e.isNeighbor := by
  unfold LocTableEntry.isDuplicated
  split <;> rfl

theorem flagged_isDuplicated {t : Table} {now : Nat} {m : Mid} (h : NoneExpired cfg t now m)
    (sn : Nat) (mid : Mid) :
    flagged (isDuplicated cfg.lifetimeLocTE t now m sn).2 mid = flagged t mid := by
  unfold isDuplicated
  split
  · rename_i t' hf
    have hfind := flagged_find h mid
    rw [hf] at hfind
    exact hfind
  · rename_i e t' hf
    have hput := flagged_put_of_find (e := (e.isDuplicated sn).2) h
      (by rw [hf, Option.any_some, e.isDuplicated_isNeighbor]) mid
    rw [hf] at hput
    exact hput

theorem flagged_setEntry (t : Table) (m mid : Mid) {f : LocTableEntry → LocTableEntry}
    (hf : ∀ e, (f e).isNeighbor = e.isNeighbor) : flagged (setEntry t m f) mid = flagged t mid := by
  unfold setEntry
  split
  · rfl
  · rename_i e he
    rw [Table.assign_eq, flagged_put]
    split
    · rename_i hmid
      rw [hmid, flagged_of_some he, hf]
    · rfl

/-! ## Packets -/

variable {env : Env} {p : Packet} {r : Router}

theorem noneExpired_of_clear {t : Table} {m : Mid} (h : flagged t m = false) (now : Nat) :
    NoneExpired cfg t now m := by
  intro e he hset
  rw [flagged_of_some he, hset] at h
  cases h

theorem noneExpired_of_lpv {t : Table} {now : Nat} {m : Mid} {e : LocTableEntry}
    (he : t.entries m = some e)
    (h : olderThan (cfg.lifetimeLocTE * 1000000) e.lpv.tst.toNat now = false) :
    NoneExpired cfg t now m := by
  intro e' he' _
  rw [Table.lookup_eq, he, Option.some.injEq] at he'
  rw [← he', h]

theorem find_of_fresh {t : Table} {now : Nat} {m : Mid} {e : LocTableEntry}
    (he : t.entries m = some e)
    (h : olderThan (cfg.lifetimeLocTE * 1000000) e.lpv.tst.toNat now = false) :
    find cfg.lifetimeLocTE t now m = (some e, t) := by
  rw [find_of_some he, if_neg (by simp [h])]

/-- A source without a flag, and a clear flag for a new entry: nothing is flagged. -/
theorem carried_clear (t₀ : Table) (hclear : flagged t₀ p.mid = false)
    (hraw : env.raw.isNeighbor = false) :
    Carried cfg env p (fun t : Table => ∀ mid, flagged t mid = flagged t₀ mid)
      (fun t => ∀ mid, flagged t mid = flagged t₀ mid) := by
  constructor
  · intro t ht mid
    rw [flagged_isDuplicated (noneExpired_of_clear (by rw [ht, hclear]) _), ht]
  · intro t ht mid
    have hnone : NoneExpired cfg t (env.now 1) p.soPv.gnAddr.mid :=
      noneExpired_of_clear ((ht p.mid).trans hclear) _
    rw [flagged_update hnone fun _ => hraw, ht]
  · intro t k _ _ ht mid
    rw [flagged_find (noneExpired_of_clear (by rw [ht, hclear]) _), ht]
  · intro t ht mid
    exact (flagged_setEntry t p.mid mid
      (f := fun e => { e with locationServicePending := false }) fun _ => rfl).trans (ht mid)

/-- A source whose entry lasts through the call keeps it, with its flag. -/
theorem carried_lasting (t₀ : Table) {e : LocTableEntry} (hlasts : Lasts cfg env p e) :
    Carried cfg env p
      (fun t : Table => (∀ mid, flagged t mid = flagged t₀ mid) ∧
        ∃ e', t.entries p.mid = some e' ∧ e'.lpv = e.lpv)
      (fun t => (∀ mid, flagged t mid = flagged t₀ mid) ∧
        ∃ e', t.entries p.mid = some e' ∧ e'.lpv = (e.moved p.soPv).lpv) := by
  constructor
  · rintro t ⟨ht, e', he', hlpv⟩
    have hfresh := hlasts.1 0 (by decide)
    rw [← hlpv] at hfresh
    refine ⟨fun mid => ?_, (e'.isDuplicated p.sn).2, ?_, ?_⟩
    · rw [flagged_isDuplicated (noneExpired_of_lpv he' hfresh), ht]
    · unfold isDuplicated
      rw [find_of_fresh he' hfresh]
      simp [Table.put]
    · rw [e'.isDuplicated_lpv, hlpv]
  · rintro t ⟨ht, e', he', hlpv⟩
    have hfresh := hlasts.1 1 (by decide)
    rw [← hlpv] at hfresh
    have hfind : find cfg.lifetimeLocTE t (env.now 1) p.soPv.gnAddr.mid = (some e', t) :=
      find_of_fresh he' hfresh
    have hold : ClearedIfNew cfg t (env.now 1) env.raw p.soPv.gnAddr.mid := by
      intro hnone
      rw [hfind] at hnone
      cases hnone
    refine ⟨fun mid => ?_, e'.moved p.soPv, ?_, ?_⟩
    · rw [flagged_update (noneExpired_of_lpv he' hfresh) hold, ht]
    · unfold update
      rw [hfind]
      simp [Table.put, Packet.mid]
    · simp only [LocTableEntry.moved, hlpv]
  · rintro t k h₂ h₄ ⟨ht, e', he', hlpv⟩
    have hfresh := hlasts.2 k h₂ h₄
    rw [← hlpv] at hfresh
    rw [find_of_fresh he' hfresh]
    exact ⟨ht, e', he', hlpv⟩
  · rintro t ⟨ht, e', he', hlpv⟩
    refine ⟨fun mid => ?_, { e' with locationServicePending := false }, ?_, hlpv⟩
    · exact (flagged_setEntry t p.mid mid
        (f := fun e => { e with locationServicePending := false }) fun _ => rfl).trans (ht mid)
    · unfold setEntry
      simp [he', Table.put]

theorem flagged_beacon (shb : Bool) (mid : Mid) :
    flagged (receiveBeaconOrShb cfg env shb r p).2.table mid =
      if mid = p.mid then true else flagged r.table mid := by
  obtain ⟨e, he⟩ : ∃ e,
      (update cfg.lifetimeLocTE r.table (env.now 0) env.raw p.soPv).entries p.mid = some e := by
    obtain ⟨-, h⟩ | ⟨e, -, ⟨-, h⟩ | ⟨-, h⟩⟩ :=
      update_cases cfg.lifetimeLocTE r.table (env.now 0) env.raw p.soPv
    all_goals
      rw [h]
      simp [Table.put, Packet.mid]
  have hrest : mid ≠ p.mid →
      flagged (update cfg.lifetimeLocTE r.table (env.now 0) env.raw p.soPv) mid =
        flagged r.table mid := by
    intro hmid
    obtain ⟨-, h⟩ | ⟨e, -, ⟨-, h⟩ | ⟨-, h⟩⟩ :=
      update_cases cfg.lifetimeLocTE r.table (env.now 0) env.raw p.soPv
    all_goals
      rw [h, flagged_put, if_neg (show mid ≠ p.soPv.gnAddr.mid from hmid)]
    rw [flagged_erase, if_neg (show mid ≠ p.soPv.gnAddr.mid from hmid)]
  unfold receiveBeaconOrShb setEntry
  simp only [Table.lookup_eq, he, Table.assign_eq, flagged_put]
  split
  · rfl
  · rename_i hmid
    exact hrest hmid

theorem counted_beacon (shb : Bool) (hm : flagged r.table p.mid = false) (h : Counted r) :
    Counted (receiveBeaconOrShb cfg env shb r p).2 :=
  counted_of_added rfl hm (flagged_beacon shb) h

theorem dispatch_of_not_reachesTable (h : reachesTable cfg p = false) :
    dispatch cfg env r p = (-1, r) := by
  simp only [reachesTable, Bool.or_eq_false_iff] at h
  obtain ⟨⟨hbeacon, hus⟩, hforward⟩ := h
  unfold dispatch
  split
  · rename_i hht
    simp [Packet.isBeacon, hht] at hbeacon
  · rename_i hht
    simp only [addressedToUs, hht] at hus
    simp [toForward, hht, hus] at hforward
  · rename_i hht
    simp [addressedToUs, hht] at hus
  · rename_i hht
    simp [addressedToUs, hht] at hus
  · rename_i hht
    simp only [addressedToUs, hht, bne_eq_false_iff_eq] at hus
    simp [Packet.isBeacon, hht, hus] at hbeacon
  · rename_i hht
    unfold receiveLocationService
    by_cases hst : p.hst = 0
    · simp only [addressedToUs, hht, if_pos hst] at hus
      rw [if_pos hst, if_neg (by simp [hus])]
    · simp only [addressedToUs, hht, if_neg hst] at hus
      simp [toForward, hht, hst, hus] at hforward
  · rfl

theorem counted_dispatch (h : Counted r) (hreach : reachesTable cfg p = true →
    if p.isBeacon then flagged r.table p.mid = false
    else (∃ e, r.table.entries p.mid = some e ∧ Lasts cfg env p e) ∨
      (flagged r.table p.mid = false ∧ env.raw.isNeighbor = false)) :
    Counted (dispatch cfg env r p).2 := by
  by_cases hr : reachesTable cfg p = true
  · have hcond := hreach hr
    by_cases hbeacon : p.isBeacon = true
    · rw [if_pos hbeacon] at hcond
      unfold dispatch
      simp only [Packet.isBeacon, Bool.or_eq_true, beq_iff_eq, Bool.and_eq_true] at hbeacon
      rcases hbeacon with hht | ⟨hht, hst⟩
      · rw [hht]
        exact counted_beacon false hcond h
      · rw [hht]
        simp only [if_pos hst]
        exact counted_beacon true hcond h
    · rw [if_neg hbeacon] at hcond
      rw [Bool.not_eq_true] at hbeacon
      rcases hcond with ⟨e, he, hlasts⟩ | ⟨hclear, hraw⟩
      · obtain ⟨hcount, htable⟩ := (carried_lasting r.table hlasts).dispatch (r := r) hbeacon
          ⟨fun _ => rfl, e, he, rfl⟩
        exact counted_of_same h hcount (htable.elim And.left And.left)
      · obtain ⟨hcount, htable⟩ := (carried_clear r.table hclear hraw).dispatch (r := r) hbeacon
          fun _ => rfl
        exact counted_of_same h hcount (htable.elim id id)
  · rw [dispatch_of_not_reachesTable (by simpa using hr)]
    exact h

theorem counted_step (h : Counted r) (e : TableEvent) (he : KeepsCount cfg r e) :
    Counted (tableStep cfg r e) := by
  cases e with
  | receive env p =>
    by_cases hpass : passes p = true
    · rw [tableStep, stepWith, receive_of_passes cfg env r hpass]
      exact counted_dispatch h fun hreach => he hpass hreach
    · rw [tableStep, stepWith, receive_of_not_passes cfg env r (by simpa using hpass)]
      exact h
  | find now mid => exact counted_of_same h rfl (flagged_find he)
  | update now raw soPv => exact counted_of_same h rfl (flagged_update he.1 he.2)
  | updateDestination now raw dePv =>
    exact counted_of_same h rfl (flagged_updateDestination he.1 he.2)
  | remove mid => exact counted_of_same h rfl (flagged_remove he)
  | refresh now => exact counted_of_same h rfl (flagged_refresh he)

theorem counted_init : Counted Router.init := by
  have hset : neighbors Table.empty = ∅ := by
    ext mid
    simp [neighbors, flagged, Table.empty]
  rw [Counted, Router.init, hset, Set.ncard_empty]

theorem counted_runAll (cfg : Config) (es : List TableEvent)
    (h : Runs.Along (tableStep cfg) (KeepsCount cfg) Router.init es) :
    Counted (runAll cfg Router.init es) :=
  h.invariant Counted (fun _ e hr he => counted_step hr e he) counted_init

end SatComm.GeoNet
