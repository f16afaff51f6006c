import SatComm.Runs.Fifo

/-!
# The location table

`LocationTable` maps the link-layer part of a GeoNetworking address to what is known of that
station: its last position vector, whether it is a neighbour, and the list of sequence numbers
already seen (`DPL_`). An entry disappears when it is found expired. Time stamps are
milliseconds in 32 bits; every lookup reads the clock for itself.

The operations only need what `std::map` offers (`EntryMap`). `Table` is the map with keys taken
by value; its `erased` is bookkeeping that nothing reads: how often an entry of each address was
erased.
-/

namespace SatComm.GeoNet

open Fifo

/-- `gn_addr_t::mid`. -/
abbrev Mid := BitVec 48

/-- The six octets of an address in the memory, first octet first. -/
def readMid (memory : Nat → BitVec 8) (k : Nat) : Mid :=
  memory k ++ memory (k + 1) ++ memory (k + 2) ++ memory (k + 3) ++ memory (k + 4) ++ memory (k + 5)

/-- What `AddrCompare` sees of a key. -/
def readKey (memory : Nat → BitVec 8) (k : Nat) : Nat := (readMid memory k).toNat

/-- `gn_addr_t`. -/
structure GnAddr where
  m : Nat
  st : Nat
  mid : Mid
deriving DecidableEq, Repr

/-- `GeoNetUtils::GnAddrMatch`. -/
def gnAddrMatch (a b : GnAddr) : Bool := a.st == b.st && a.mid == b.mid

/-- `gn_lpv_t`, in host byte order. -/
structure Lpv where
  gnAddr : GnAddr
  tst : BitVec 32
  latitude : Int
  longitude : Int
  pai : Nat
  s : Nat
  h : Nat
deriving DecidableEq, Repr

/-- `gn_spv_t`, in host byte order. -/
structure Spv where
  gnAddr : GnAddr
  tst : BitVec 32
  latitude : Int
  longitude : Int
deriving DecidableEq, Repr

structure DplElement where
  sn : Nat
  counter : Nat
deriving DecidableEq, Repr

/-- The station type, the protocol version and the packet data rate are constants that nothing
reads. -/
structure LocTableEntry where
  gnAddr : GnAddr
  lpv : Lpv
  locationServicePending : Bool
  isNeighbor : Bool
  updated : Bool
  dpl : List DplElement
deriving DecidableEq, Repr

/-- What the memory of a new entry holds where the constructors write nothing: `isNeighbor_`,
and behind a short position vector the last two octets of the address in `LPV_`. -/
structure Raw where
  isNeighbor : Bool
  midTail : BitVec 16
deriving DecidableEq, Repr

namespace LocTableEntry

/-- The constructor from a long position vector. -/
def ofLpv (raw : Raw) (src : Lpv) : LocTableEntry where
  gnAddr := src.gnAddr
  lpv := src
  locationServicePending := false
  isNeighbor := raw.isNeighbor
  updated := false
  dpl := []

/-- The constructor from a short position vector: it copies six of the eight octets of the
address. -/
def ofSpv (raw : Raw) (dst : Spv) : LocTableEntry where
  gnAddr := dst.gnAddr
  lpv :=
    { gnAddr := { dst.gnAddr with mid := dst.gnAddr.mid.extractLsb' 16 32 ++ raw.midTail }
      tst := dst.tst
      latitude := dst.latitude
      longitude := dst.longitude
      pai := 0
      s := 0
      h := 0 }
  locationServicePending := false
  isNeighbor := raw.isNeighbor
  updated := false
  dpl := []

end LocTableEntry

def maxDplLen : Nat := 20

/-- `n->counter++` on the element of `sn`. -/
def bump (sn : Nat) : List DplElement → List DplElement
  | [] => []
  | n :: dpl =>
    if n.sn = sn then { n with counter := (n.counter + 1) % 2 ^ 32 } :: dpl else n :: bump sn dpl

/-- `LocTableEntry::isDuplicated`: a new sequence number is recorded. -/
def LocTableEntry.isDuplicated (e : LocTableEntry) (sn : Nat) : Bool × LocTableEntry :=
  if sn ∈ e.dpl.map DplElement.sn then (true, { e with dpl := bump sn e.dpl })
  else (false, { e with dpl := remember maxDplLen e.dpl ⟨sn, 0⟩ })

/-- What the table uses of `std::map`. The entries are shared pointers, so `assign` writes to
the entry that `lookup` finds. -/
class EntryMap (τ : Type) where
  lookup : τ → Mid → Option LocTableEntry
  assign : τ → Mid → LocTableEntry → τ
  insert : τ → Mid → LocTableEntry → τ
  erase : τ → Mid → τ

/-- `tsnow - tst > limit` on 32-bit unsigned numbers. -/
def olderThan (limit tst now : Nat) : Bool := limit % 2 ^ 32 < (now + 2 ^ 32 - tst) % 2 ^ 32

/-- The comparison of clause C.2 as the source has it: the time stamps differ, by no more than
half the range. -/
def movesOn (new old : Nat) : Bool :=
  (old < new && new - old ≤ (2 ^ 32 - 1) / 2) || (new < old && old - new ≤ (2 ^ 32 - 1) / 2)

section operations

variable {τ : Type} [EntryMap τ]

open EntryMap

/-- `LocationTable::Find`, with a clock that reads `now`. -/
def find (lifeTime : Nat) (t : τ) (now : Nat) (mid : Mid) : Option LocTableEntry × τ :=
  match lookup t mid with
  | none => (none, t)
  | some e =>
    if olderThan (lifeTime * 1000000) e.lpv.tst.toNat now then (none, erase t mid) else (some e, t)

/-- `Find`, then `isDuplicated` on the entry found. Without an entry nothing is a duplicate,
and nothing is recorded. -/
def isDuplicated (lifeTime : Nat) (t : τ) (now : Nat) (mid : Mid) (sn : Nat) : Bool × τ :=
  match find lifeTime t now mid with
  | (none, t) => (false, t)
  | (some e, t) => ((e.isDuplicated sn).1, assign t mid (e.isDuplicated sn).2)

/-- An entry with the position vector received, if the comparison says so. -/
def LocTableEntry.moved (e : LocTableEntry) (lpv : Lpv) : LocTableEntry :=
  { e with
    lpv := if movesOn lpv.tst.toNat e.lpv.tst.toNat then lpv else e.lpv
    updated := true }

/-- `LocationTable::Update` for a source position vector. -/
def update (lifeTime : Nat) (t : τ) (now : Nat) (raw : Raw) (lpv : Lpv) : τ :=
  match find lifeTime t now lpv.gnAddr.mid with
  | (some e, t) => assign t lpv.gnAddr.mid (e.moved lpv)
  | (none, t) => insert t lpv.gnAddr.mid (.ofLpv raw lpv)

/-- `LocationTable::Update` for a destination position vector. A neighbour's entry stays and
its position goes to the packet. -/
def updateDestination (lifeTime : Nat) (t : τ) (now : Nat) (raw : Raw) (spv : Spv) : τ × Spv :=
  match find lifeTime t now spv.gnAddr.mid with
  | (none, t) => (insert t spv.gnAddr.mid (.ofSpv raw spv), spv)
  | (some e, t) =>
    if e.isNeighbor then
      (assign t spv.gnAddr.mid { e with updated := true },
        if movesOn e.lpv.tst.toNat spv.tst.toNat then
          { spv with tst := e.lpv.tst, latitude := e.lpv.latitude, longitude := e.lpv.longitude }
        else spv)
    else
      (assign t spv.gnAddr.mid
        { e with
          updated := true
          lpv :=
            { e.lpv with
              latitude := spv.latitude
              longitude := spv.longitude
              tst := spv.tst } },
        spv)

/-- A setter on the entry of an address that `Update` has just returned. -/
def setEntry (t : τ) (mid : Mid) (f : LocTableEntry → LocTableEntry) : τ :=
  match lookup t mid with
  | none => t
  | some e => assign t mid (f e)

/-- `LocationTable::Remove`. -/
def remove (t : τ) (mid : Mid) : τ :=
  match lookup t mid with
  | none => t
  | some _ => erase t mid

/-- The test of `RefreshTask`, whose limit is a thousand times shorter than the one of
`find`. -/
def outlived (lifeTime : Nat) (t : τ) (now : Mid → Nat) (mid : Mid) : Bool :=
  match lookup t mid with
  | none => false
  | some e => olderThan (lifeTime * 1000) e.lpv.tst.toNat (now mid)

end operations

/-! ## Keys by value -/

structure Table where
  entries : Mid → Option LocTableEntry
  erased : Mid → Nat

namespace Table

def empty : Table := ⟨fun _ => none, fun _ => 0⟩

def put (t : Table) (mid : Mid) (e : LocTableEntry) : Table :=
  { t with entries := Function.update t.entries mid (some e) }

def erase (t : Table) (mid : Mid) : Table :=
  ⟨Function.update t.entries mid none, Function.update t.erased mid (t.erased mid + 1)⟩

instance : EntryMap Table := ⟨Table.entries, put, put, erase⟩

@[simp]
theorem lookup_eq (t : Table) (mid : Mid) : EntryMap.lookup t mid = t.entries mid := rfl

@[simp]
theorem assign_eq (t : Table) (mid : Mid) (e : LocTableEntry) :
    EntryMap.assign t mid e = t.put mid e := rfl

@[simp]
theorem erase_eq (t : Table) (mid : Mid) : EntryMap.erase t mid = t.erase mid := rfl

end Table

/-- One round of `RefreshTask`; the clock reads `now mid` when the entry of `mid` is looked
at. The loop is taken to go on behind a node that it erased. -/
def refresh (lifeTime : Nat) (t : Table) (now : Mid → Nat) : Table where
  entries mid := if outlived lifeTime t now mid then none else t.entries mid
  erased mid := t.erased mid + if outlived lifeTime t now mid then 1 else 0

/-! ## What a lookup leaves alone -/

/-- The sequence numbers recorded for an address stay, unless its entry is erased. -/
structure Keeps (t t' : Table) (mid : Mid) : Prop where
  mono : t.erased mid ≤ t'.erased mid
  dpl : t'.erased mid = t.erased mid → ∀ e, t.entries mid = some e →
    ∃ e', t'.entries mid = some e' ∧ e'.dpl = e.dpl

theorem Keeps.refl (t : Table) (mid : Mid) : Keeps t t mid := ⟨le_rfl, fun _ e h => ⟨e, h, rfl⟩⟩

theorem Keeps.trans {a b c : Table} {mid : Mid} (h : Keeps a b mid) (h' : Keeps b c mid) :
    Keeps a c mid := by
  refine ⟨h.mono.trans h'.mono, fun heq e he => ?_⟩
  have hm := h.mono
  have hm' := h'.mono
  obtain ⟨e', he', hd⟩ := h.dpl (by omega) e he
  obtain ⟨e'', he'', hd'⟩ := h'.dpl (by omega) e' he'
  exact ⟨e'', he'', hd'.trans hd⟩

theorem keeps_erase (t : Table) (m mid : Mid) : Keeps t (t.erase m) mid := by
  by_cases h : mid = m
  · subst h
    refine ⟨?_, fun heq => ?_⟩
    · simp [Table.erase]
    · simp [Table.erase] at heq
  · refine ⟨?_, fun _ e he => ⟨e, ?_, rfl⟩⟩
    · simp [Table.erase, h]
    · simpa [Table.erase, h] using he

theorem find_of_none {lifeTime : Nat} {t : Table} {now : Nat} {m : Mid}
    (h : t.entries m = none) : find lifeTime t now m = (none, t) := by
  unfold find
  rw [Table.lookup_eq, h]

theorem find_of_some {lifeTime : Nat} {t : Table} {now : Nat} {m : Mid} {e : LocTableEntry}
    (h : t.entries m = some e) :
    find lifeTime t now m =
      if olderThan (lifeTime * 1000000) e.lpv.tst.toNat now then (none, t.erase m)
      else (some e, t) := by
  unfold find
  rw [Table.lookup_eq, h]
  rfl

/-- The three things a lookup can do. -/
theorem find_cases (lifeTime : Nat) (t : Table) (now : Nat) (m : Mid) :
    (t.entries m = none ∧ find lifeTime t now m = (none, t)) ∨
      ∃ e, t.entries m = some e ∧
        ((olderThan (lifeTime * 1000000) e.lpv.tst.toNat now = true ∧
            find lifeTime t now m = (none, t.erase m)) ∨
          (olderThan (lifeTime * 1000000) e.lpv.tst.toNat now = false ∧
            find lifeTime t now m = (some e, t))) := by
  cases he : t.entries m with
  | none => exact .inl ⟨rfl, find_of_none he⟩
  | some e =>
    refine .inr ⟨e, rfl, ?_⟩
    rw [find_of_some he]
    cases olderThan (lifeTime * 1000000) e.lpv.tst.toNat now with
    | true => exact .inl ⟨rfl, rfl⟩
    | false => exact .inr ⟨rfl, rfl⟩

theorem keeps_find (lifeTime : Nat) (t : Table) (now : Nat) (m mid : Mid) :
    Keeps t (find lifeTime t now m).2 mid := by
  obtain ⟨-, h⟩ | ⟨e, -, ⟨-, h⟩ | ⟨-, h⟩⟩ := find_cases lifeTime t now m
  · rw [h]
    exact .refl t mid
  · rw [h]
    exact keeps_erase t m mid
  · rw [h]
    exact .refl t mid

/-- What `find` returns is what the table holds. -/
theorem find_some {lifeTime : Nat} {t : Table} {now : Nat} {m : Mid} {e : LocTableEntry}
    (h : (find lifeTime t now m).1 = some e) :
    t.entries m = some e ∧ (find lifeTime t now m).2 = t := by
  obtain ⟨-, hf⟩ | ⟨e', he, ⟨-, hf⟩ | ⟨-, hf⟩⟩ := find_cases lifeTime t now m
  · rw [hf] at h
    cases h
  · rw [hf] at h
    cases h
  · rw [hf] at h ⊢
    exact ⟨he.trans h, rfl⟩

theorem find_none {lifeTime : Nat} {t : Table} {now : Nat} {m : Mid}
    (h : (find lifeTime t now m).1 = none) : (find lifeTime t now m).2.entries m = none := by
  obtain ⟨he, hf⟩ | ⟨e', he, ⟨-, hf⟩ | ⟨-, hf⟩⟩ := find_cases lifeTime t now m
  · rw [hf]
    exact he
  · rw [hf]
    simp [Table.erase]
  · rw [hf] at h
    cases h

/-- A lookup that erases nothing finds the entry. -/
theorem find_eq_of_kept {lifeTime : Nat} {t : Table} {now : Nat} {m : Mid} {e : LocTableEntry}
    (he : t.entries m = some e) (h : (find lifeTime t now m).2.erased m = t.erased m) :
    find lifeTime t now m = (some e, t) := by
  obtain ⟨hn, -⟩ | ⟨e', he', ⟨-, hf⟩ | ⟨-, hf⟩⟩ := find_cases lifeTime t now m
  · rw [he] at hn
    cases hn
  · rw [hf] at h
    simp [Table.erase] at h
  · rw [hf, ← he', he]

theorem keeps_put {t : Table} {m mid : Mid} {e : LocTableEntry}
    (h : ∀ e', t.entries m = some e' → e.dpl = e'.dpl) : Keeps t (t.put m e) mid := by
  refine ⟨le_rfl, fun _ e' he' => ?_⟩
  by_cases hm : mid = m
  · subst hm
    exact ⟨e, by simp [Table.put], h e' he'⟩
  · exact ⟨e', by simpa [Table.put, hm] using he', rfl⟩

/-- The three things `update` can do. -/
theorem update_cases (lifeTime : Nat) (t : Table) (now : Nat) (raw : Raw) (lpv : Lpv) :
    (t.entries lpv.gnAddr.mid = none ∧
        update lifeTime t now raw lpv = t.put lpv.gnAddr.mid (.ofLpv raw lpv)) ∨
      ∃ e, t.entries lpv.gnAddr.mid = some e ∧
        ((olderThan (lifeTime * 1000000) e.lpv.tst.toNat now = true ∧
            update lifeTime t now raw lpv =
              (t.erase lpv.gnAddr.mid).put lpv.gnAddr.mid (.ofLpv raw lpv)) ∨
          (olderThan (lifeTime * 1000000) e.lpv.tst.toNat now = false ∧
            update lifeTime t now raw lpv = t.put lpv.gnAddr.mid (e.moved lpv))) := by
  unfold update
  obtain ⟨he, h⟩ | ⟨e, he, ⟨hold, h⟩ | ⟨hnew, h⟩⟩ := find_cases lifeTime t now lpv.gnAddr.mid
  · exact .inl ⟨he, by rw [h]; rfl⟩
  · exact .inr ⟨e, he, .inl ⟨hold, by rw [h]; rfl⟩⟩
  · exact .inr ⟨e, he, .inr ⟨hnew, by rw [h]; rfl⟩⟩

theorem keeps_update (lifeTime : Nat) (t : Table) (now : Nat) (raw : Raw) (lpv : Lpv) (mid : Mid) :
    Keeps t (update lifeTime t now raw lpv) mid := by
  obtain ⟨he, h⟩ | ⟨e, he, ⟨-, h⟩ | ⟨-, h⟩⟩ := update_cases lifeTime t now raw lpv
  · rw [h]
    refine keeps_put fun e' he' => ?_
    rw [he] at he'
    cases he'
  · rw [h]
    refine (keeps_erase t lpv.gnAddr.mid mid).trans (keeps_put fun e' he' => ?_)
    simp [Table.erase] at he'
  · rw [h]
    refine keeps_put fun e' he' => ?_
    rw [he] at he'
    rw [← Option.some.inj he']
    rfl

theorem keeps_setEntry (t : Table) (m mid : Mid) {f : LocTableEntry → LocTableEntry}
    (hf : ∀ e, (f e).dpl = e.dpl) : Keeps t (setEntry t m f) mid := by
  unfold setEntry
  simp only [Table.lookup_eq, Table.assign_eq]
  split
  · exact .refl t mid
  · rename_i e he
    refine keeps_put fun e' he' => ?_
    rw [he] at he'
    rw [hf, Option.some.inj he']

theorem keeps_refresh (lifeTime : Nat) (t : Table) (now : Mid → Nat) (mid : Mid) :
    Keeps t (refresh lifeTime t now) mid := by
  by_cases h : outlived lifeTime t now mid = true
  · refine ⟨?_, fun heq => ?_⟩
    · simp [refresh]
    · simp [refresh, h] at heq
  · refine ⟨?_, fun _ e he => ⟨e, ?_, rfl⟩⟩
    · simp [refresh]
    · simpa [refresh, h] using he

theorem keeps_remove (t : Table) (m mid : Mid) : Keeps t (remove t m) mid := by
  unfold remove
  split
  · exact .refl t mid
  · exact keeps_erase t m mid

theorem keeps_updateDestination (lifeTime : Nat) (t : Table) (now : Nat) (raw : Raw) (spv : Spv)
    (mid : Mid) : Keeps t (updateDestination lifeTime t now raw spv).1 mid := by
  have hfind := keeps_find lifeTime t now spv.gnAddr.mid mid
  unfold updateDestination
  split
  · rename_i t' hf
    have hnone := find_none (show (find lifeTime t now spv.gnAddr.mid).1 = none by rw [hf])
    rw [hf] at hnone hfind
    refine hfind.trans (keeps_put fun e' he' => ?_)
    rw [hnone] at he'
    cases he'
  · rename_i e t' hf
    have hsome : t'.entries spv.gnAddr.mid = some e := by
      obtain ⟨he, ht⟩ := find_some (show (find lifeTime t now spv.gnAddr.mid).1 = some e by rw [hf])
      have ht' : t' = t := by rw [← ht, hf]
      rw [ht', he]
    rw [hf] at hfind
    have hsame : ∀ e', t'.entries spv.gnAddr.mid = some e' → e.dpl = e'.dpl := by
      intro e' he'
      rw [hsome] at he'
      rw [Option.some.inj he']
    split
    · exact hfind.trans (keeps_put hsame)
    · exact hfind.trans (keeps_put hsame)

/-! ## The duplicate check -/

theorem map_sn_bump (sn : Nat) (dpl : List DplElement) :
    (bump sn dpl).map DplElement.sn = dpl.map DplElement.sn := by
  induction dpl with
  | nil => rfl
  | cons n dpl ih =>
    rw [bump]
    split
    · rfl
    · rw [List.map_cons, List.map_cons, ih]

theorem map_remember {α β : Type*} (f : α → β) (cap : Nat) (l : List α) (x : α) :
    (remember cap l x).map f = remember cap (l.map f) (f x) := by
  unfold remember
  split
  · rename_i h
    rw [if_pos (by simpa using h)]
    simp
  · rename_i h
    rw [if_neg (by simpa using h)]
    simp

theorem keeps_isDuplicated_of_ne (lifeTime : Nat) (t : Table) (now : Nat) {m mid : Mid}
    (sn : Nat) (h : mid ≠ m) : Keeps t (isDuplicated lifeTime t now m sn).2 mid := by
  have hfind := keeps_find lifeTime t now m mid
  unfold isDuplicated
  split
  · rename_i t' hf
    rw [hf] at hfind
    exact hfind
  · rename_i e t' hf
    rw [hf] at hfind
    refine hfind.trans ⟨le_rfl, fun _ e' he' => ⟨e', ?_, rfl⟩⟩
    simpa [Table.put, h] using he'

/-- The check on an entry that is not erased: a number in the list is a duplicate, another one
is recorded. -/
theorem isDuplicated_spec {lifeTime : Nat} {t : Table} {now : Nat} {m : Mid} {sn : Nat}
    {e : LocTableEntry} (he : t.entries m = some e)
    (hkept : (isDuplicated lifeTime t now m sn).2.erased m = t.erased m) :
    ∃ e', (isDuplicated lifeTime t now m sn).2.entries m = some e' ∧
      ((sn ∈ e.dpl.map DplElement.sn ∧ (isDuplicated lifeTime t now m sn).1 = true ∧
          e'.dpl.map DplElement.sn = e.dpl.map DplElement.sn) ∨
        (sn ∉ e.dpl.map DplElement.sn ∧ (isDuplicated lifeTime t now m sn).1 = false ∧
          e'.dpl.map DplElement.sn = remember maxDplLen (e.dpl.map DplElement.sn) sn)) := by
  have hf : find lifeTime t now m = (some e, t) := by
    apply find_eq_of_kept he
    unfold isDuplicated at hkept
    split at hkept
    · rename_i hf
      rw [hf]
      exact hkept
    · rename_i e' t' hf
      rw [hf]
      exact hkept
  unfold isDuplicated
  rw [hf]
  simp only [Table.assign_eq, Table.put, Function.update_self, Option.some.injEq, exists_eq_left']
  unfold LocTableEntry.isDuplicated
  split
  · rename_i hmem
    exact .inl ⟨hmem, rfl, map_sn_bump sn e.dpl⟩
  · rename_i hmem
    exact .inr ⟨hmem, rfl, map_remember DplElement.sn maxDplLen e.dpl ⟨sn, 0⟩⟩

theorem isDuplicated_mono (lifeTime : Nat) (t : Table) (now : Nat) (m mid : Mid) (sn : Nat) :
    t.erased mid ≤ (isDuplicated lifeTime t now m sn).2.erased mid := by
  have hfind := (keeps_find lifeTime t now m mid).mono
  unfold isDuplicated
  split
  · rename_i t' hf
    rw [hf] at hfind
    exact hfind
  · rename_i e t' hf
    rw [hf] at hfind
    exact hfind

end SatComm.GeoNet
