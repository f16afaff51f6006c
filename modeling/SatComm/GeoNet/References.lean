import SatComm.GeoNet.Duplicates
import SatComm.GeoNet.Simulation
import SatComm.Runs.Along
import SatComm.Runs.Keyed

/-!
# Keys that are references

The keys of `TableEntries_` are pointers: `Update` inserts the address of the source's `mid`
in the packet it was called for, and `AddrCompare` compares what the pointers point to. The
application receives every packet into one buffer, so a reception overwrites the keys of the
entries made before.

`RefTable` is the table with such keys: the nodes of the map in their sequence, the buffer, and
where the packet at hand has its source address. A reception that leaves what the keys point to
as it was (`Undisturbed`) does what the table with keys by value does; another one may not.
-/

namespace SatComm.GeoNet

structure RefTable where
  buffer : Nat → BitVec 8
  /-- Where `so_pv.gn_addr.mid` of the packet at hand is in the buffer. -/
  key : Nat
  nodes : List (Nat × LocTableEntry)
  /-- Bookkeeping, as in `Table`. -/
  erased : Mid → Nat

namespace RefTable

def lookup (t : RefTable) (mid : Mid) : Option LocTableEntry :=
  Keyed.lookup (readKey t.buffer) mid.toNat t.nodes

def assign (t : RefTable) (mid : Mid) (e : LocTableEntry) : RefTable :=
  { t with nodes := Keyed.assign (readKey t.buffer) mid.toNat e t.nodes }

def erase (t : RefTable) (mid : Mid) : RefTable :=
  { t with
    nodes := Keyed.erase (readKey t.buffer) mid.toNat t.nodes
    erased := Function.update t.erased mid (t.erased mid + 1) }

/-- The key is the packet's own address. -/
def insert (t : RefTable) (mid : Mid) (e : LocTableEntry) : RefTable :=
  { t with nodes := Keyed.insert (readKey t.buffer) mid.toNat t.key e t.nodes }

instance : EntryMap RefTable := ⟨lookup, assign, insert, erase⟩

def empty : RefTable := ⟨fun _ => 0, 0, [], fun _ => 0⟩

end RefTable

/-- Where a packet has the `mid` of its source: behind the basic and the common header, and
behind the sequence number where there is one. -/
def Packet.keyOffset (p : Packet) : Nat := if p.isBeacon then 14 else 18

/-- One packet received into the buffer. -/
structure Reception where
  /-- The buffer afterwards. -/
  buffer : Nat → BitVec 8
  packet : Packet
  env : Env
  mid_eq : readMid buffer packet.keyOffset = packet.mid

/-- The router with the memory as it is when something at `key` is handled. -/
def RouterOf.over (r : RouterOf RefTable) (buffer : Nat → BitVec 8) (key : Nat) :
    RouterOf RefTable :=
  { r with table := { r.table with buffer := buffer, key := key } }

/-- The buffer is overwritten, then `Receive` is called. -/
def receiveInto (cfg : Config) (r : RouterOf RefTable) (R : Reception) : RouterOf RefTable :=
  (receive cfg R.env (r.over R.buffer R.packet.keyOffset) R.packet).2

/-- The same reception with keys by value. -/
def receiveByValue (cfg : Config) (r : Router) (R : Reception) : Router :=
  (receive cfg R.env r R.packet).2

def RouterOf.started : RouterOf RefTable := ⟨.empty, 0⟩

/-! ## What the table is for -/

/-- The table after the packets `Rs` is a map of addresses: it holds for each address what a
table with keys by value holds, the entries come from packets of their address, and no packet
changes the entry of another address. -/
structure KeyedBySource (cfg : Config) (Rs : List Reception) : Prop where
  byValue : ∀ a, (Rs.foldl (receiveInto cfg) .started).table.lookup a =
    (Rs.foldl (receiveByValue cfg) Router.init).table.entries a
  origin : ∀ a e, (Rs.foldl (receiveInto cfg) .started).table.lookup a = some e →
    (∃ R ∈ Rs, R.packet.mid = a ∧ e.gnAddr = R.packet.soPv.gnAddr) ∧
      ∃ R ∈ Rs, R.packet.mid = a ∧ e.lpv = R.packet.soPv
  frame : ∀ pre R post, Rs = pre ++ R :: post → ∀ a, a ≠ R.packet.mid →
    ((pre ++ [R]).foldl (receiveInto cfg) .started).table.lookup a =
      (pre.foldl (receiveInto cfg) .started).table.lookup a

/-- The reception leaves the address that each key points to as it was. -/
def Undisturbed (r : RouterOf RefTable) (R : Reception) : Prop :=
  ∀ n ∈ r.table.nodes, readMid R.buffer n.1 = n.2.gnAddr.mid

/-! ## One operation -/

/-- The keys point to the addresses of their entries, and the entries are those of `v`. -/
structure Refines (buffer : Nat → BitVec 8) (key : Nat) (t : RefTable) (v : Table) : Prop where
  buffer_eq : t.buffer = buffer
  key_eq : t.key = key
  reads : ∀ n ∈ t.nodes, readMid buffer n.1 = n.2.gnAddr.mid
  sorted : Search.Increasing (Keyed.seen (readKey buffer)) t.nodes
  entries : ∀ a e, v.entries a = some e ↔ ∃ n ∈ t.nodes, n.2 = e ∧ e.gnAddr.mid = a
  erased_eq : t.erased = v.erased

variable {buffer : Nat → BitVec 8} {key : Nat} {t : RefTable} {v : Table}

namespace Refines

theorem seen_eq_iff (h : Refines buffer key t v) {n : Nat × LocTableEntry} (hn : n ∈ t.nodes)
    (a : Mid) : Keyed.seen (readKey buffer) n = a.toNat ↔ n.2.gnAddr.mid = a := by
  rw [Keyed.seen, readKey, h.reads n hn, BitVec.toNat_inj]

theorem lookup_eq (h : Refines buffer key t v) (a : Mid) : t.lookup a = v.entries a := by
  apply Option.ext
  intro e
  rw [RefTable.lookup, h.buffer_eq, Keyed.lookup_eq_some_iff h.sorted, h.entries]
  constructor
  · rintro ⟨n, hn, hseen, rfl⟩
    exact ⟨n, hn, rfl, (h.seen_eq_iff hn a).mp hseen⟩
  · rintro ⟨n, hn, rfl, hmid⟩
    exact ⟨n, hn, (h.seen_eq_iff hn a).mpr hmid, rfl⟩

/-- The nodes of `a` are exchanged for `new`. -/
theorem exchange (h : Refines buffer key t v) {a : Mid} {v' : Table}
    {nodes new : List (Nat × LocTableEntry)} {erased : Mid → Nat}
    (hsorted : Search.Increasing (Keyed.seen (readKey buffer)) nodes)
    (hmem : ∀ n, n ∈ nodes ↔
      (n ∈ t.nodes ∧ Keyed.seen (readKey buffer) n ≠ a.toNat) ∨ n ∈ new)
    (hnew : ∀ n ∈ new, readMid buffer n.1 = a ∧ n.2.gnAddr.mid = a)
    (hother : ∀ b, b ≠ a → v'.entries b = v.entries b)
    (hthis : ∀ e, v'.entries a = some e ↔ ∃ n ∈ new, n.2 = e) (herased : erased = v'.erased) :
    Refines buffer key
      { t with
        nodes := nodes
        erased := erased } v' := by
  refine ⟨h.buffer_eq, h.key_eq, ?_, hsorted, ?_, herased⟩
  · intro n hn
    rcases (hmem n).mp hn with ⟨hold, -⟩ | hn
    · exact h.reads n hold
    · rw [(hnew n hn).1, (hnew n hn).2]
  · intro b e
    by_cases hb : b = a
    · subst hb
      rw [hthis]
      constructor
      · rintro ⟨n, hn, rfl⟩
        exact ⟨n, (hmem n).mpr (.inr hn), rfl, (hnew n hn).2⟩
      · rintro ⟨n, hn, rfl, hmid⟩
        rcases (hmem n).mp hn with ⟨hold, hne⟩ | hn
        · exact absurd ((h.seen_eq_iff hold b).mpr hmid) hne
        · exact ⟨n, hn, rfl⟩
    · rw [hother b hb, h.entries]
      constructor
      · rintro ⟨n, hn, rfl, hmid⟩
        refine ⟨n, (hmem n).mpr (.inl ⟨hn, fun hseen => ?_⟩), rfl, hmid⟩
        exact hb (hmid.symm.trans ((h.seen_eq_iff hn a).mp hseen))
      · rintro ⟨n, hn, rfl, hmid⟩
        rcases (hmem n).mp hn with ⟨hold, -⟩ | hn
        · exact ⟨n, hold, rfl, hmid⟩
        · exact absurd (hmid.symm.trans (hnew n hn).2) hb

theorem assign (h : Refines buffer key t v) {a : Mid} {e : LocTableEntry}
    (hmid : e.gnAddr.mid = a) (hsome : (v.entries a).isSome) :
    Refines buffer key (t.assign a e) (v.put a e) := by
  have hlookup : (Keyed.lookup (readKey buffer) a.toNat t.nodes).isSome := by
    rw [← h.buffer_eq, ← RefTable.lookup, h.lookup_eq]
    exact hsome
  obtain ⟨hsorted, m, hm, hseen, hmem⟩ := Keyed.assign_spec h.sorted hlookup e
  obtain rfl := h.buffer_eq
  refine h.exchange hsorted hmem ?_ ?_ ?_ ?_
  · intro n hn
    obtain rfl := List.mem_singleton.mp hn
    exact ⟨(h.reads m hm).trans ((h.seen_eq_iff hm a).mp hseen), hmid⟩
  · intro b hb
    simp [Table.put, hb]
  · simp [Table.put]
  · exact h.erased_eq

theorem erase (h : Refines buffer key t v) (a : Mid) :
    Refines buffer key (t.erase a) (v.erase a) := by
  obtain ⟨hsorted, hmem⟩ := Keyed.erase_spec h.sorted a.toNat
  obtain rfl := h.buffer_eq
  refine h.exchange hsorted hmem ?_ ?_ ?_ ?_
  · simp
  · intro b hb
    simp [Table.erase, hb]
  · simp [Table.erase]
  · rw [Table.erase, h.erased_eq]

theorem insert (h : Refines buffer key t v) {a : Mid} {e : LocTableEntry}
    (hmid : e.gnAddr.mid = a) (hkey : readMid buffer key = a) (hnone : v.entries a = none) :
    Refines buffer key (t.insert a e) (v.put a e) := by
  have hlookup : Keyed.lookup (readKey buffer) a.toNat t.nodes = none := by
    rw [← h.buffer_eq, ← RefTable.lookup, h.lookup_eq, hnone]
  have hread : readKey buffer t.key = a.toNat := by rw [readKey, h.key_eq, hkey]
  obtain ⟨hsorted, hmem⟩ := Keyed.insert_spec h.sorted hread hlookup e
  obtain rfl := h.buffer_eq
  refine h.exchange hsorted hmem ?_ ?_ ?_ ?_
  · intro n hn
    obtain rfl := List.mem_singleton.mp hn
    exact ⟨by rw [h.key_eq, hkey], hmid⟩
  · intro b hb
    simp [Table.put, hb]
  · simp [Table.put]
  · exact h.erased_eq

/-! ## One packet -/

/-- An entry of `v` was made for its address. -/
theorem mid_of_entries (h : Refines buffer key t v) {a : Mid} {e : LocTableEntry}
    (he : v.entries a = some e) : e.gnAddr.mid = a := by
  obtain ⟨n, -, -, hmid⟩ := (h.entries a e).mp he
  exact hmid

theorem find (h : Refines buffer key t v) (lifeTime now : Nat) (a : Mid) :
    Alike (Refines buffer key) (find lifeTime t now a) (GeoNet.find lifeTime v now a) := by
  have hlookup : EntryMap.lookup t a = EntryMap.lookup v a := h.lookup_eq a
  unfold GeoNet.find
  rw [hlookup, Table.lookup_eq]
  cases he : v.entries a with
  | none => exact ⟨rfl, h⟩
  | some e =>
    simp only
    split
    · exact ⟨rfl, h.erase a⟩
    · exact ⟨rfl, h⟩

/-- What `find` returns on the table by value is still there. -/
theorem find_cases (h : Refines buffer key t v) (lifeTime now : Nat) (a : Mid) :
    (∃ t' v', GeoNet.find lifeTime t now a = (none, t') ∧ GeoNet.find lifeTime v now a = (none, v') ∧
        Refines buffer key t' v' ∧ v'.entries a = none) ∨
      ∃ e, GeoNet.find lifeTime t now a = (some e, t) ∧ GeoNet.find lifeTime v now a = (some e, v) ∧
        v.entries a = some e := by
  have halike := h.find lifeTime now a
  have hlookup : EntryMap.lookup t a = EntryMap.lookup v a := h.lookup_eq a
  rcases GeoNet.find_cases lifeTime v now a with
    ⟨hv, hf⟩ | ⟨e, hv, ⟨-, hf⟩ | ⟨hnew, hf⟩⟩
  · refine .inl ⟨(GeoNet.find lifeTime t now a).2, v, ?_, hf, ?_, hv⟩
    · rw [hf] at halike
      exact Prod.ext halike.1 rfl
    · rw [hf] at halike
      exact halike.2
  · refine .inl ⟨(GeoNet.find lifeTime t now a).2, v.erase a, ?_, hf, ?_, by simp [Table.erase]⟩
    · rw [hf] at halike
      exact Prod.ext halike.1 rfl
    · rw [hf] at halike
      exact halike.2
  · refine .inr ⟨e, ?_, hf, hv⟩
    unfold GeoNet.find
    rw [hlookup, Table.lookup_eq, hv]
    simp only
    rw [if_neg (by simp [hnew])]

theorem isDuplicated (h : Refines buffer key t v) (lifeTime now : Nat) (a : Mid) (sn : Nat) :
    Alike (Refines buffer key) (isDuplicated lifeTime t now a sn)
      (GeoNet.isDuplicated lifeTime v now a sn) := by
  unfold GeoNet.isDuplicated
  rcases h.find_cases lifeTime now a with ⟨t', v', hf, hf', hr, -⟩ | ⟨e, hf, hf', he⟩
  · rw [hf, hf']
    exact ⟨rfl, hr⟩
  · rw [hf, hf']
    refine ⟨rfl, h.assign ?_ (by simp [he])⟩
    have hsame : (e.isDuplicated sn).2.gnAddr = e.gnAddr := by
      unfold LocTableEntry.isDuplicated
      split <;> rfl
    rw [hsame]
    exact h.mid_of_entries he

theorem update (h : Refines buffer key t v) (lifeTime now : Nat) (raw : Raw) {lpv : Lpv}
    (hkey : readMid buffer key = lpv.gnAddr.mid) :
    Refines buffer key (update lifeTime t now raw lpv) (GeoNet.update lifeTime v now raw lpv) := by
  unfold GeoNet.update
  rcases h.find_cases lifeTime now lpv.gnAddr.mid with
    ⟨t', v', hf, hf', hr, hnone⟩ | ⟨e, hf, hf', he⟩
  · rw [hf, hf']
    exact hr.insert rfl hkey hnone
  · rw [hf, hf']
    have hmid : e.gnAddr.mid = lpv.gnAddr.mid := h.mid_of_entries he
    have hmoved : (e.moved lpv).gnAddr = e.gnAddr := rfl
    exact h.assign (by rw [hmoved, hmid]) (by simp [he])

theorem setEntry (h : Refines buffer key t v) (a : Mid) {f : LocTableEntry → LocTableEntry}
    (hf : ∀ e, (f e).gnAddr = e.gnAddr) :
    Refines buffer key (setEntry t a f) (GeoNet.setEntry v a f) := by
  have hlookup : EntryMap.lookup t a = EntryMap.lookup v a := h.lookup_eq a
  unfold GeoNet.setEntry
  rw [hlookup, Table.lookup_eq]
  cases he : v.entries a with
  | none => exact h
  | some e => exact h.assign (by rw [hf]; exact h.mid_of_entries he) (by simp [he])

theorem inStep (cfg : Config) (env : Env) {p : Packet} (hkey : readMid buffer key = p.mid) :
    InStep cfg env p (Refines buffer key) (Refines buffer key) where
  check h := h.isDuplicated _ _ _ _
  update h := h.update _ _ _ hkey
  lookup _ _ _ h := h.find _ _ _
  clear h := h.setEntry _ fun _ => rfl

/-- A router with references decides like one with keys by value. -/
theorem dispatch (cfg : Config) (env : Env) {p : Packet} (hkey : readMid buffer key = p.mid)
    {r : RouterOf RefTable} {r' : Router} (h : Refines buffer key r.table r'.table)
    (hcount : r.neighborCount = r'.neighborCount) :
    (dispatch cfg env r p).1 = (GeoNet.dispatch cfg env r' p).1 ∧
      Refines buffer key (GeoNet.dispatch cfg env r p).2.table
        (GeoNet.dispatch cfg env r' p).2.table ∧
      (GeoNet.dispatch cfg env r p).2.neighborCount =
        (GeoNet.dispatch cfg env r' p).2.neighborCount := by
  by_cases hb : p.isBeacon = true
  · have hbeacon : ∀ shb,
        (receiveBeaconOrShb cfg env shb r p).1 = (receiveBeaconOrShb cfg env shb r' p).1 ∧
        Refines buffer key (receiveBeaconOrShb cfg env shb r p).2.table
          (receiveBeaconOrShb cfg env shb r' p).2.table ∧
        (receiveBeaconOrShb cfg env shb r p).2.neighborCount =
          (receiveBeaconOrShb cfg env shb r' p).2.neighborCount := by
      intro shb
      refine ⟨rfl, (h.update _ _ _ hkey).setEntry _ fun _ => rfl, ?_⟩
      simp [receiveBeaconOrShb, hcount]
    simp only [Packet.isBeacon, Bool.or_eq_true, beq_iff_eq, Bool.and_eq_true] at hb
    rcases hb with hht | ⟨hht, hhst⟩
    · unfold GeoNet.dispatch
      rw [hht]
      exact hbeacon false
    · unfold GeoNet.dispatch
      rw [hht]
      simp only [hhst, ↓reduceIte]
      exact hbeacon true
  · have hsame := (inStep cfg env hkey).dispatch (by simpa using hb) h hcount
    exact ⟨hsame.result, hsame.table.elim id id, hsame.count_left.trans hsame.count_right.symm⟩

theorem receive (cfg : Config) (env : Env) {p : Packet} (hkey : readMid buffer key = p.mid)
    {r : RouterOf RefTable} {r' : Router} (h : Refines buffer key r.table r'.table)
    (hcount : r.neighborCount = r'.neighborCount) :
    (receive cfg env r p).1 = (GeoNet.receive cfg env r' p).1 ∧
      Refines buffer key (GeoNet.receive cfg env r p).2.table
        (GeoNet.receive cfg env r' p).2.table ∧
      (GeoNet.receive cfg env r p).2.neighborCount =
        (GeoNet.receive cfg env r' p).2.neighborCount := by
  unfold GeoNet.receive
  split
  · exact ⟨rfl, h, hcount⟩
  · split
    · exact ⟨rfl, h, hcount⟩
    · exact dispatch cfg env (p := hop p) hkey h hcount

end Refines

/-! ## What a packet does to the table by value -/

/-- `t` differs from `t₀` in the entry of the packet's source only, and there the address is that
of the former entry or of the packet, the position that of the former entry or of the packet. -/
structure Touched (p : Packet) (t₀ t : Table) : Prop where
  other : ∀ a, a ≠ p.mid → t.entries a = t₀.entries a
  this : ∀ e, t.entries p.mid = some e →
    (e.gnAddr = p.soPv.gnAddr ∧ e.lpv = p.soPv) ∨
      ∃ e₀, t₀.entries p.mid = some e₀ ∧ e.gnAddr = e₀.gnAddr ∧ (e.lpv = e₀.lpv ∨ e.lpv = p.soPv)

namespace Touched

variable {p : Packet} {t₀ t : Table}

theorem refl (p : Packet) (t : Table) : Touched p t t :=
  ⟨fun _ _ => rfl, fun e he => .inr ⟨e, he, rfl, .inl rfl⟩⟩

theorem erase (h : Touched p t₀ t) : Touched p t₀ (t.erase p.mid) where
  other a ha := by simpa [Table.erase, ha] using h.other a ha
  this e he := by simp [Table.erase] at he

theorem put_of_packet (h : Touched p t₀ t) {e : LocTableEntry} (haddr : e.gnAddr = p.soPv.gnAddr)
    (hlpv : e.lpv = p.soPv) : Touched p t₀ (t.put p.mid e) where
  other a ha := by simpa [Table.put, ha] using h.other a ha
  this e' he' := by
    obtain rfl : e = e' := by simpa [Table.put] using he'
    exact .inl ⟨haddr, hlpv⟩

theorem put (h : Touched p t₀ t) {e e' : LocTableEntry} (he : t.entries p.mid = some e)
    (haddr : e'.gnAddr = e.gnAddr) (hlpv : e'.lpv = e.lpv ∨ e'.lpv = p.soPv) :
    Touched p t₀ (t.put p.mid e') where
  other a ha := by simpa [Table.put, ha] using h.other a ha
  this e'' he'' := by
    obtain rfl : e' = e'' := by simpa [Table.put] using he''
    rcases h.this e he with ⟨ha, hl⟩ | ⟨e₀, h₀, ha, hl⟩
    · refine .inl ⟨haddr.trans ha, ?_⟩
      rcases hlpv with hlpv | hlpv
      · exact hlpv.trans hl
      · exact hlpv
    · refine .inr ⟨e₀, h₀, haddr.trans ha, ?_⟩
      rcases hlpv with hlpv | hlpv
      · rwa [hlpv]
      · exact .inr hlpv

theorem find (h : Touched p t₀ t) (lifeTime now : Nat) :
    Touched p t₀ (find lifeTime t now p.mid).2 := by
  obtain ⟨-, hf⟩ | ⟨e, -, ⟨-, hf⟩ | ⟨-, hf⟩⟩ := find_cases lifeTime t now p.mid
  · rwa [hf]
  · rw [hf]
    exact h.erase
  · rwa [hf]

theorem isDuplicated (h : Touched p t₀ t) (lifeTime now sn : Nat) :
    Touched p t₀ (isDuplicated lifeTime t now p.mid sn).2 := by
  have hfind := h.find lifeTime now
  unfold GeoNet.isDuplicated
  split
  · rename_i t' hf
    rwa [hf] at hfind
  · rename_i e t' hf
    rw [hf] at hfind
    have hsome : t.entries p.mid = some e ∧ (GeoNet.find lifeTime t now p.mid).2 = t :=
      find_some (by rw [hf])
    have ht' : t' = t := by rw [← hsome.2, hf]
    refine hfind.put (e := e) (ht' ▸ hsome.1) ?_ (.inl ?_)
    · unfold LocTableEntry.isDuplicated
      split <;> rfl
    · unfold LocTableEntry.isDuplicated
      split <;> rfl

theorem update (h : Touched p t₀ t) (lifeTime now : Nat) (raw : Raw) :
    Touched p t₀ (update lifeTime t now raw p.soPv) := by
  obtain ⟨-, hu⟩ | ⟨e, he, ⟨-, hu⟩ | ⟨-, hu⟩⟩ := update_cases lifeTime t now raw p.soPv
  · rw [hu]
    exact h.put_of_packet rfl rfl
  · rw [hu]
    exact h.erase.put_of_packet rfl rfl
  · rw [hu]
    refine h.put he rfl ?_
    unfold LocTableEntry.moved
    split
    · exact .inr rfl
    · exact .inl rfl

theorem setEntry (h : Touched p t₀ t) {f : LocTableEntry → LocTableEntry}
    (haddr : ∀ e, (f e).gnAddr = e.gnAddr) (hlpv : ∀ e, (f e).lpv = e.lpv) :
    Touched p t₀ (setEntry t p.mid f) := by
  unfold GeoNet.setEntry
  rw [Table.lookup_eq]
  cases he : t.entries p.mid with
  | none => exact h
  | some e => exact h.put he (haddr e) (.inl (hlpv e))

theorem dispatch (cfg : Config) (env : Env) (p : Packet) (r : Router) :
    Touched p r.table (dispatch cfg env r p).2.table := by
  have hcarried : Carried cfg env p (Touched p r.table) (Touched p r.table) :=
    { check := fun h => h.isDuplicated _ _ _
      update := fun h => h.update _ _ _
      lookup := fun _ _ _ h => h.find _ _
      clear := fun h => h.setEntry (fun _ => rfl) fun _ => rfl }
  by_cases hb : p.isBeacon = true
  · have hbeacon : ∀ shb, Touched p r.table (receiveBeaconOrShb cfg env shb r p).2.table :=
      fun shb => ((refl p r.table).update _ _ _).setEntry (fun _ => rfl) fun _ => rfl
    simp only [Packet.isBeacon, Bool.or_eq_true, beq_iff_eq, Bool.and_eq_true] at hb
    unfold GeoNet.dispatch
    rcases hb with hht | ⟨hht, hhst⟩
    · rw [hht]
      exact hbeacon false
    · rw [hht]
      simp only [hhst, ↓reduceIte]
      exact hbeacon true
  · exact (hcarried.dispatch (by simpa using hb) (refl p r.table)).2.elim id id

theorem receive (cfg : Config) (r : Router) (R : Reception) :
    Touched R.packet r.table (receiveByValue cfg r R).table := by
  unfold receiveByValue GeoNet.receive
  split
  · exact refl _ _
  · split
    · exact refl _ _
    · have h := dispatch cfg R.env (hop R.packet) r
      exact ⟨h.other, h.this⟩

end Touched

/-! ## Runs -/

/-- The two routers between receptions. -/
structure Related (r : RouterOf RefTable) (v : Router) : Prop where
  table : Refines r.table.buffer r.table.key r.table v.table
  count : r.neighborCount = v.neighborCount

theorem Related.lookup_eq {r : RouterOf RefTable} {v : Router} (h : Related r v) (a : Mid) :
    r.table.lookup a = v.table.entries a := h.table.lookup_eq a

theorem related_started : Related .started Router.init where
  table := by
    refine ⟨rfl, rfl, fun n hn => (nomatch hn), List.Pairwise.nil, fun a e => ?_, rfl⟩
    constructor
    · intro h
      cases h
    · rintro ⟨n, hn, -⟩
      cases hn
  count := rfl

/-- Overwriting the memory, where the keys still point to their addresses. -/
theorem Related.over {r : RouterOf RefTable} {v : Router} (h : Related r v)
    {buffer : Nat → BitVec 8} (hreads : ∀ n ∈ r.table.nodes, readMid buffer n.1 = n.2.gnAddr.mid)
    (key : Nat) : Refines buffer key (r.over buffer key).table v.table where
  buffer_eq := rfl
  key_eq := rfl
  reads := hreads
  sorted := by
    refine (Keyed.lookup_congr (readKey buffer) h.table.sorted fun n hn => ?_).1
    rw [readKey, readKey, hreads n hn, h.table.reads n hn]
  entries := h.table.entries
  erased_eq := h.table.erased_eq

theorem related_of_refines {buffer : Nat → BitVec 8} {key : Nat} {r : RouterOf RefTable} {v : Router}
    (h : Refines buffer key r.table v.table) (hcount : r.neighborCount = v.neighborCount) :
    Related r v := by
  refine ⟨?_, hcount⟩
  rwa [h.buffer_eq, h.key_eq]

theorem Related.receive (cfg : Config) {r : RouterOf RefTable} {v : Router} (h : Related r v)
    {R : Reception} (hR : Undisturbed r R) :
    Related (receiveInto cfg r R) (receiveByValue cfg v R) := by
  obtain ⟨-, htable, hcount⟩ := Refines.receive cfg R.env (r := r.over R.buffer R.packet.keyOffset)
    R.mid_eq (h.over hR R.packet.keyOffset) h.count
  exact related_of_refines htable hcount

theorem related_foldl (cfg : Config) {Rs : List Reception} {r : RouterOf RefTable} {v : Router}
    (h : Related r v) (hRs : Runs.Along (receiveInto cfg) Undisturbed r Rs) :
    Related (Rs.foldl (receiveInto cfg) r) (Rs.foldl (receiveByValue cfg) v) := by
  induction Rs generalizing r v with
  | nil => exact h
  | cons R Rs ih => exact ih (h.receive cfg hRs.1) hRs.2

/-- The entries come from packets of their address. -/
def FromPackets (Rs : List Reception) (t : Table) : Prop :=
  ∀ a e, t.entries a = some e →
    (∃ R ∈ Rs, R.packet.mid = a ∧ e.gnAddr = R.packet.soPv.gnAddr) ∧
      ∃ R ∈ Rs, R.packet.mid = a ∧ e.lpv = R.packet.soPv

theorem FromPackets.receive {Rs : List Reception} {r : Router} (h : FromPackets Rs r.table)
    (cfg : Config) (R : Reception) :
    FromPackets (Rs ++ [R]) (receiveByValue cfg r R).table := by
  have htouched := Touched.receive cfg r R
  have hold : FromPackets (Rs ++ [R]) r.table := by
    intro a e he
    obtain ⟨⟨A, hA, hAeq⟩, ⟨L, hL, hLeq⟩⟩ := h a e he
    exact ⟨⟨A, List.mem_append_left _ hA, hAeq⟩, ⟨L, List.mem_append_left _ hL, hLeq⟩⟩
  have hlast : R ∈ Rs ++ [R] := by simp
  intro a e he
  by_cases ha : a = R.packet.mid
  · subst ha
    rcases htouched.this e he with ⟨haddr, hlpv⟩ | ⟨e₀, h₀, haddr, hlpv⟩
    · exact ⟨⟨R, hlast, rfl, haddr⟩, ⟨R, hlast, rfl, hlpv⟩⟩
    · obtain ⟨hA, hL⟩ := hold _ e₀ h₀
      refine ⟨by rwa [haddr], ?_⟩
      rcases hlpv with hlpv | hlpv
      · rwa [hlpv]
      · exact ⟨R, hlast, rfl, hlpv⟩
  · rw [htouched.other a ha] at he
    exact hold a e he

theorem fromPackets_foldl (cfg : Config) (Rs : List Reception) :
    FromPackets Rs (Rs.foldl (receiveByValue cfg) Router.init).table := by
  induction Rs using List.reverseRecOn with
  | nil =>
    intro a e he
    cases he
  | append_singleton Rs R ih =>
    rw [List.foldl_concat]
    exact ih.receive cfg R

/-- As long as no reception changes what the keys point to, the table is a map of addresses. -/
theorem keyedBySource_of_undisturbed (cfg : Config) (Rs : List Reception)
    (h : Runs.Along (receiveInto cfg) Undisturbed .started Rs) : KeyedBySource cfg Rs := by
  have hend := related_foldl cfg related_started h
  refine ⟨hend.lookup_eq, fun a e he => ?_, fun pre R post heq a ha => ?_⟩
  · rw [hend.lookup_eq] at he
    exact fromPackets_foldl cfg Rs a e he
  · subst heq
    obtain ⟨hpre, hrest⟩ := (Runs.along_append _ _ _).mp h
    have hbefore := related_foldl cfg related_started hpre
    have hafter := hbefore.receive cfg hrest.1
    rw [List.foldl_concat, hafter.lookup_eq, hbefore.lookup_eq]
    exact (Touched.receive cfg _ R).other a ha

/-! ## Two stations -/

/-- A router at rest, one second of life time. -/
def exampleConfig : Config where
  localAddr := ⟨0, 5, 1⟩
  lifetimeLocTE := 1
  areaForwardingAlgorithm := .simple
  nonAreaForwardingAlgorithm := .greedy

def exampleEnv : Env := ⟨fun _ => 1000, -1, -1, -1, ⟨false, 0⟩⟩

/-- A GUC packet to that router, with sequence number `sn`. -/
def gucPacket (sn : Nat) : Packet where
  version := 1
  bhNh := 1
  rhl := 2
  chNh := 2
  ht := 2
  hst := 0
  tc := 0
  mhl := 3
  sn := sn
  soPv := ⟨⟨0, 5, 2⟩, 1000, 0, 0, 0, 0, 0⟩
  deAddr := ⟨0, 5, 1⟩
  reqAddr := ⟨0, 5, 1⟩

/-- A beacon of the station whose address consists of the octet `b`. -/
def beaconOf (b : BitVec 8) : Reception where
  buffer _ := b
  packet :=
    { gucPacket 0 with
      ht := 1
      soPv := { (gucPacket 0).soPv with gnAddr := ⟨0, 5, readMid (fun _ => b) 14⟩ } }
  env := exampleEnv
  mid_eq := rfl

/-- Two beacons of one station. -/
theorem keyedBySource_one_station :
    Runs.Along (receiveInto exampleConfig) Undisturbed .started [beaconOf 7, beaconOf 7] ∧
      KeyedBySource exampleConfig [beaconOf 7, beaconOf 7] := by
  have hrun : Runs.Along (receiveInto exampleConfig) Undisturbed .started
      [beaconOf 7, beaconOf 7] := by
    unfold Undisturbed
    decide +kernel
  exact ⟨hrun, keyedBySource_of_undisturbed _ _ hrun⟩

/-- A beacon of another station takes over the entry of the first. -/
theorem not_keyedBySource_two_stations :
    ¬ KeyedBySource exampleConfig [beaconOf 7, beaconOf 9] := by
  intro h
  have hfirst := congrArg Option.isSome (h.byValue (beaconOf 7).packet.mid)
  revert hfirst
  decide +kernel

end SatComm.GeoNet
