import SatComm.GeoNet.Receive

/-!
# Duplicate packet detection

A sequence number is recorded as a side effect of the duplicate check on an entry of the
location table, and the check comes before `Update` makes an entry. So the first packet of a
source that has none is not recorded. Once a packet is recorded, a second copy is dropped until
`MAX_DPL_LEN` other sequence numbers of the same link-layer address were recorded; these are
the ones of accepted packets and of packets to be forwarded whose hop limit is used up, which
are recorded first and dropped afterwards.
-/

namespace SatComm.GeoNet

open Fifo

variable (cfg : Config) (env : Env)

/-! ## Which packets are checked -/

/-- The packet gets past the header checks. -/
def passes (p : Packet) : Bool := headerOk p && decide ((hop p).rhl ≤ (hop p).mhl)

/-- A GUC packet to this router, a GBC, GAC or multi-hop TSB packet, or an LS packet to this
router. -/
def addressedToUs (p : Packet) : Bool :=
  match p.ht with
  | 2 => p.toUs cfg
  | 3 | 4 => true
  | 5 => p.hst != 0
  | 6 => if p.hst = 0 then p.requestsUs cfg else p.toUs cfg
  | _ => false

/-- A GUC packet or LS reply to be forwarded. -/
def toForward (p : Packet) : Bool :=
  (p.ht == 2 || (p.ht == 6 && p.hst != 0)) && !p.toUs cfg

/-- A packet of a kind that is checked for duplicates. -/
def checkedKind (p : Packet) : Bool :=
  addressedToUs cfg p || (toForward cfg p && cfg.nonAreaForwardingAlgorithm != .cbf)

/-- A packet to be forwarded that has no hop left. -/
def hopLimitUsed (p : Packet) : Bool := toForward cfg p && p.rhl == 0

/-! ## What `Receive` does to the recorded numbers -/

/-- The duplicate check and its consequences: a duplicate is dropped; another packet is
accepted, or its hop limit is used up, and the recorded numbers stay. -/
def Checked (r : Router) (p : Packet) (res : Int × Router) : Prop :=
  let d := isDuplicated cfg.lifetimeLocTE r.table (env.now 0) p.mid p.sn
  (d.1 = true ∧ res.1 = -1 ∧ res.2.table = d.2) ∨
    (d.1 = false ∧ (res.1 ≠ -1 ∨ hopLimitUsed cfg p = true) ∧
      ∀ mid, Keeps d.2 res.2.table mid)

theorem keeps_cbf (t : Table) (k : Nat) (p : Packet) (mid : Mid) :
    Keeps t (cbf cfg env t k p) mid := by
  unfold cbf
  split
  · exact .refl t mid
  · exact keeps_find _ _ _ _ _

theorem keeps_forwardAlgorithmSelect (t : Table) (k : Nat) (p : Packet) (mid : Mid) :
    Keeps t (forwardAlgorithmSelect cfg env t k p) mid := by
  unfold forwardAlgorithmSelect
  split
  · split
    · exact keeps_cbf cfg env t k p mid
    · exact .refl t mid
  · have hfind := keeps_find cfg.lifetimeLocTE t (env.now k) p.mid mid
    split
    · rename_i t' hf
      rw [hf] at hfind
      exact hfind
    · rename_i e t' hf
      rw [hf] at hfind
      split
      · exact hfind
      · split
        · exact hfind.trans (keeps_cbf cfg env t' (k + 1) p mid)
        · exact hfind

/-- The shape that four of the five receive functions share: a duplicate is dropped, and another
packet leaves the recorded numbers alone. -/
theorem checked_of_cases (r : Router) (p : Packet) {res : Int × Router}
    (hdup : ∀ t, isDuplicated cfg.lifetimeLocTE r.table (env.now 0) p.mid p.sn = (true, t) →
      res = (-1, { r with table := t }))
    (hnew : ∀ t, isDuplicated cfg.lifetimeLocTE r.table (env.now 0) p.mid p.sn = (false, t) →
      res.1 ≠ -1 ∧ ∀ mid, Keeps t res.2.table mid) : Checked cfg env r p res := by
  unfold Checked
  rcases hd : isDuplicated cfg.lifetimeLocTE r.table (env.now 0) p.mid p.sn with ⟨dup, t⟩
  cases dup with
  | true => exact .inl ⟨rfl, by rw [hdup t hd], by rw [hdup t hd]⟩
  | false =>
    obtain ⟨hres, hkeeps⟩ := hnew t hd
    exact .inr ⟨rfl, .inl hres, hkeeps⟩

theorem checked_receiveGbcGac (r : Router) (p : Packet) :
    Checked cfg env r p (receiveGbcGac cfg env r p) := by
  unfold receiveGbcGac Checked
  split
  · rename_i t hd
    exact .inl ⟨by rw [hd], rfl, by rw [hd]⟩
  · rename_i t hd
    refine .inr ⟨by rw [hd], .inl ?_, fun mid => ?_⟩
    · simp only
      split <;> decide
    · have hupd := keeps_update cfg.lifetimeLocTE t (env.now 1) env.raw p.soPv mid
      rw [hd]
      simp only
      split
      · exact hupd.trans (keeps_forwardAlgorithmSelect cfg env _ 2 p mid)
      · exact hupd

/-- A GUC packet to be forwarded, with the duplicate check. -/
theorem checked_receiveGuc_forward (r : Router) {p : Packet} (hto : p.toUs cfg = false)
    (halg : cfg.nonAreaForwardingAlgorithm ≠ .cbf) (hlimit : p.rhl = 0 → hopLimitUsed cfg p = true) :
    Checked cfg env r p (receiveGuc cfg env r p) := by
  unfold receiveGuc Checked
  rw [if_neg (by simp [hto]), if_pos halg]
  rcases hd : isDuplicated cfg.lifetimeLocTE r.table (env.now 0) p.mid p.sn with ⟨dup, t⟩
  have hupd := keeps_update cfg.lifetimeLocTE t (env.now 1) env.raw p.soPv
  cases dup with
  | true => exact .inl ⟨rfl, rfl, rfl⟩
  | false =>
    refine .inr ⟨rfl, ?_, ?_⟩
    · simp only [Bool.false_eq_true, if_false]
      split
      · exact .inr (hlimit ‹_›)
      · left
        split
        · exact (by simp)
        · exact (by simp)
    · intro mid
      simp only [Bool.false_eq_true, if_false]
      split
      · exact hupd mid
      · split
        · exact hupd mid
        · exact hupd mid

/-- Without the check nothing is recorded. -/
theorem keeps_receiveGuc_cbf (r : Router) {p : Packet} (hto : p.toUs cfg = false)
    (halg : cfg.nonAreaForwardingAlgorithm = .cbf) (mid : Mid) :
    Keeps r.table (receiveGuc cfg env r p).2.table mid := by
  have hupd := keeps_update cfg.lifetimeLocTE r.table (env.now 1) env.raw p.soPv mid
  unfold receiveGuc
  rw [if_neg (by simp [hto]), if_neg (by simp [halg])]
  simp only [Bool.false_eq_true, if_false]
  split
  · exact hupd
  · split
    · exact hupd
    · exact hupd.trans (keeps_cbf cfg env _ 2 p mid)

theorem checked_receiveGuc (r : Router) {p : Packet} (hto : p.toUs cfg = true) :
    Checked cfg env r p (receiveGuc cfg env r p) := by
  unfold receiveGuc
  rw [if_pos hto]
  refine checked_of_cases cfg env r p (fun t hd => by rw [hd]) fun t hd => ?_
  rw [hd]
  exact ⟨by simp, keeps_update _ _ _ _ _⟩

theorem checked_receiveTsb (r : Router) (p : Packet) :
    Checked cfg env r p (receiveTsb cfg env r p) := by
  unfold receiveTsb
  refine checked_of_cases cfg env r p (fun t hd => by rw [hd]) fun t hd => ?_
  rw [hd]
  exact ⟨by simp, keeps_update _ _ _ _ _⟩

theorem receive_of_not_passes (r : Router) {p : Packet} (h : passes p = false) :
    receive cfg env r p = (-1, r) := by
  unfold receive
  by_cases hok : headerOk p = true
  · rw [if_neg (by simp [hok])]
    rw [passes, hok, Bool.true_and, decide_eq_false_iff_not] at h
    exact if_pos (by omega)
  · rw [if_pos (by simp [hok])]

theorem receive_of_passes (r : Router) {p : Packet} (h : passes p = true) :
    receive cfg env r p = dispatch cfg env r (hop p) := by
  rw [passes, Bool.and_eq_true, decide_eq_true_eq] at h
  unfold receive
  rw [if_neg (by simp [h.1]), if_neg (by omega)]

theorem ht_of_passes {p : Packet} (h : passes p = true) : 0 < (hop p).ht ∧ (hop p).ht ≤ 6 := by
  simp only [passes, headerOk, Bool.and_eq_true, decide_eq_true_eq] at h
  exact h.1.1.1.2

/-- A GUC packet or LS reply, here or to be forwarded. -/
theorem guc_spec (r : Router) {p : Packet} (hkind : addressedToUs cfg p = p.toUs cfg)
    (hforward : toForward cfg p = !p.toUs cfg) :
    (checkedKind cfg p = true ∧ Checked cfg env r p (receiveGuc cfg env r p)) ∨
      (checkedKind cfg p = false ∧ ∀ mid, Keeps r.table (receiveGuc cfg env r p).2.table mid) := by
  rw [checkedKind, hkind, hforward]
  by_cases hto : p.toUs cfg = true
  · exact .inl ⟨by simp [hto], checked_receiveGuc cfg env r hto⟩
  · rw [Bool.not_eq_true] at hto
    by_cases halg : cfg.nonAreaForwardingAlgorithm = .cbf
    · exact .inr ⟨by simp [hto, halg], keeps_receiveGuc_cbf cfg env r hto halg⟩
    · refine .inl ⟨by simp [hto, halg], checked_receiveGuc_forward cfg env r hto halg ?_⟩
      intro h0
      simp [hopLimitUsed, hforward, hto, h0]

/-- The duplicate check is made, or the recorded numbers are left alone. -/
theorem dispatch_spec (r : Router) {p : Packet} (hht : 0 < p.ht ∧ p.ht ≤ 6) :
    (checkedKind cfg p = true ∧ Checked cfg env r p (dispatch cfg env r p)) ∨
      (checkedKind cfg p = false ∧ ∀ mid, Keeps r.table (dispatch cfg env r p).2.table mid) := by
  have hshb : ∀ mid shb, Keeps r.table (receiveBeaconOrShb cfg env shb r p).2.table mid :=
    fun mid _ => (keeps_update cfg.lifetimeLocTE r.table (env.now 0) env.raw p.soPv mid).trans
      (keeps_setEntry _ p.mid mid fun _ => rfl)
  unfold dispatch
  split
  · rename_i ht
    exact .inr ⟨by simp [checkedKind, addressedToUs, toForward, ht], fun mid => hshb mid false⟩
  · rename_i ht
    exact guc_spec cfg env r (by simp [addressedToUs, ht]) (by simp [toForward, ht])
  · rename_i ht
    exact .inl ⟨by simp [checkedKind, addressedToUs, ht], checked_receiveGbcGac cfg env r p⟩
  · rename_i ht
    exact .inl ⟨by simp [checkedKind, addressedToUs, ht], checked_receiveGbcGac cfg env r p⟩
  · rename_i ht
    by_cases hst : p.hst = 0
    · rw [if_pos hst]
      exact .inr ⟨by simp [checkedKind, addressedToUs, toForward, ht, hst],
        fun mid => hshb mid true⟩
    · rw [if_neg hst]
      exact .inl ⟨by simp [checkedKind, addressedToUs, ht, hst], checked_receiveTsb cfg env r p⟩
  · rename_i ht
    unfold receiveLocationService
    by_cases hst : p.hst = 0
    · rw [if_pos hst]
      by_cases hreq : p.requestsUs cfg = true
      · rw [if_pos hreq]
        refine .inl ⟨by simp [checkedKind, addressedToUs, ht, hst, hreq],
          checked_of_cases cfg env r p (fun t hd => by rw [hd]) fun t hd => ?_⟩
        rw [hd]
        exact ⟨by simp, keeps_update _ _ _ _ _⟩
      · rw [if_neg hreq]
        exact .inr ⟨by simp [checkedKind, addressedToUs, toForward, ht, hst, hreq],
          fun mid => .refl r.table mid⟩
    · rw [if_neg hst]
      by_cases hto : p.toUs cfg = true
      · rw [if_pos hto]
        refine .inl ⟨by simp [checkedKind, addressedToUs, ht, hst, hto],
          checked_of_cases cfg env r p (fun t hd => by rw [hd]) fun t hd => ?_⟩
        rw [hd]
        have hupd := keeps_update cfg.lifetimeLocTE t (env.now 1) env.raw p.soPv
        exact ⟨by simp, fun mid => (hupd mid).trans (keeps_setEntry _ p.mid mid fun _ => rfl)⟩
      · rw [if_neg hto]
        exact guc_spec cfg env r (by simp [addressedToUs, ht, hst]) (by simp [toForward, ht, hst])
  · exfalso
    grind

/-- `Receive`, by whether the packet is checked for duplicates. -/
theorem receive_cases (r : Router) (p : Packet) :
    (passes p = true ∧ checkedKind cfg p = true ∧ Checked cfg env r (hop p) (receive cfg env r p)) ∨
      ((checkedKind cfg p = true → (receive cfg env r p).1 = -1) ∧
        ∀ mid, Keeps r.table (receive cfg env r p).2.table mid) := by
  by_cases hpass : passes p = true
  · rw [receive_of_passes cfg env r hpass]
    rcases dispatch_spec cfg env r (ht_of_passes hpass) with ⟨hkind, h⟩ | ⟨hkind, h⟩
    · exact .inl ⟨hpass, hkind, h⟩
    · refine .inr ⟨fun hk => ?_, h⟩
      have hk' : checkedKind cfg (hop p) = true := hk
      rw [hkind] at hk'
      cases hk'
  · rw [receive_of_not_passes cfg env r (by simpa using hpass)]
    exact .inr ⟨fun _ => rfl, fun mid => .refl r.table mid⟩

/-! ## A recorded number -/

/-- The entry of `mid` remembers `n`, and `since` came after it. -/
def Remembers (t : Table) (mid : Mid) (n : Nat) (since : List Nat) : Prop :=
  ∃ e, t.entries mid = some e ∧ Recent (e.dpl.map DplElement.sn) n since

theorem Remembers.keeps {t t' : Table} {mid : Mid} {n : Nat} {since : List Nat}
    (h : Remembers t mid n since) (hk : Keeps t t' mid) (heq : t'.erased mid = t.erased mid) :
    Remembers t' mid n since := by
  obtain ⟨e, he, hrec⟩ := h
  obtain ⟨e', he', hd⟩ := hk.dpl heq e he
  exact ⟨e', he', hd ▸ hrec⟩

theorem Checked.mono {r : Router} {p : Packet} {res : Int × Router}
    (h : Checked cfg env r p res) (mid : Mid) : r.table.erased mid ≤ res.2.table.erased mid := by
  have hdup := isDuplicated_mono cfg.lifetimeLocTE r.table (env.now 0) p.mid mid p.sn
  rcases h with ⟨-, -, ht⟩ | ⟨-, -, hk⟩
  · rw [ht]
    exact hdup
  · exact hdup.trans (hk mid).mono

theorem receive_mono (r : Router) (p : Packet) (mid : Mid) :
    r.table.erased mid ≤ (receive cfg env r p).2.table.erased mid := by
  rcases receive_cases cfg env r p with ⟨-, -, h⟩ | ⟨-, h⟩
  · exact h.mono cfg env mid
  · exact (h mid).mono

/-- A table operation outside of `Receive` leaves the recorded numbers alone. -/
theorem keeps_tableStep (r : Router) {e : TableEvent} (he : ∀ env p, e ≠ .receive env p)
    (mid : Mid) : Keeps r.table (tableStep cfg r e).table mid := by
  cases e with
  | receive env p => exact absurd rfl (he env p)
  | find now m => exact keeps_find _ _ _ _ _
  | update now raw soPv => exact keeps_update _ _ _ _ _ _
  | updateDestination now raw dePv => exact keeps_updateDestination _ _ _ _ _ _
  | remove m => exact keeps_remove _ _ _
  | refresh now => exact keeps_refresh _ _ _ mid

theorem tableStep_mono (r : Router) (e : TableEvent) (mid : Mid) :
    r.table.erased mid ≤ (tableStep cfg r e).table.erased mid := by
  by_cases he : ∃ env p, e = .receive env p
  · obtain ⟨env, p, rfl⟩ := he
    exact receive_mono cfg env r p mid
  · exact (keeps_tableStep cfg r (fun env p h => he ⟨env, p, h⟩) mid).mono

theorem runAll_mono (r : Router) (es : List TableEvent) (mid : Mid) :
    r.table.erased mid ≤ (runAll cfg r es).table.erased mid := by
  induction es generalizing r with
  | nil => exact le_rfl
  | cons e es ih => exact (tableStep_mono cfg r e mid).trans (ih (tableStep cfg r e))

/-! ## Between two copies -/

/-- The sequence number that a packet of `Receive`'s result `result` adds to those recorded for
`mid`: one of a packet that is accepted, or one of a packet to be forwarded without a hop left. -/
def numberOf (mid : Mid) (p : Packet) (result : Int) : Finset Nat :=
  if p.mid = mid ∧ passes p = true ∧ checkedKind cfg p = true ∧
      (result ≠ -1 ∨ hopLimitUsed cfg (hop p) = true) then {p.sn} else ∅

def recordedBy (mid : Mid) (r : Router) : TableEvent → Finset Nat
  | .receive env p => numberOf cfg mid p (receive cfg env r p).1
  | _ => ∅

/-- The sequence numbers that the steps of a run add. -/
def recorded {σ ε : Type} (step : σ → ε → σ) (number : σ → ε → Finset Nat) :
    σ → List ε → Finset Nat
  | _, [] => ∅
  | s, e :: es => number s e ∪ recorded step number (step s e) es

/-- What was recorded since `n` is new and was counted. -/
structure Since (n : Nat) (since : List Nat) (numbers : Finset Nat) : Prop where
  nodup : since.Nodup
  notMem : n ∉ since
  counted : ∀ x ∈ since, x ∈ numbers

theorem Since.length_le {n : Nat} {since : List Nat} {numbers : Finset Nat}
    (h : Since n since numbers) : since.length ≤ (numbers.erase n).card := by
  rw [← List.toFinset_card_of_nodup h.nodup]
  apply Finset.card_le_card
  intro x hx
  rw [List.mem_toFinset] at hx
  rw [Finset.mem_erase]
  exact ⟨fun hxn => h.notMem (hxn ▸ hx), h.counted x hx⟩

theorem Since.nil (n : Nat) (numbers : Finset Nat) : Since n [] numbers :=
  ⟨List.nodup_nil, List.not_mem_nil, by simp⟩

theorem Since.union {n : Nat} {since : List Nat} {numbers : Finset Nat}
    (h : Since n since numbers) (more : Finset Nat) : Since n since (numbers ∪ more) :=
  ⟨h.nodup, h.notMem, fun x hx => Finset.mem_union_left more (h.counted x hx)⟩

theorem Since.concat {n x : Nat} {since : List Nat} {numbers : Finset Nat}
    (h : Since n since numbers) (hnew : x ∉ since) (hne : x ≠ n) (hx : x ∈ numbers) :
    Since n (since ++ [x]) numbers := by
  refine ⟨?_, ?_, ?_⟩
  · rw [List.nodup_append]
    refine ⟨h.nodup, List.nodup_singleton x, ?_⟩
    rintro a ha b hb rfl
    rw [List.mem_singleton] at hb
    exact hnew (hb ▸ ha)
  · rw [List.mem_append, List.mem_singleton]
    rintro (hn | hn)
    · exact h.notMem hn
    · exact hne hn.symm
  · intro y hy
    rw [List.mem_append, List.mem_singleton] at hy
    rcases hy with hy | rfl
    · exact h.counted y hy
    · exact hx

/-- One packet between the copies. The number it adds was not among those recorded since, so
there is room for it while fewer than `maxDplLen` are counted. -/
theorem remembers_receive {r : Router} {p : Packet} {mid : Mid} {n : Nat} {since : List Nat}
    {numbers : Finset Nat} (h : Remembers r.table mid n since) (hs : Since n since numbers)
    (hkept : (receive cfg env r p).2.table.erased mid = r.table.erased mid)
    (hroom : ((numbers ∪ recordedBy cfg mid r (.receive env p)).erase n).card < maxDplLen) :
    ∃ since', Remembers (receive cfg env r p).2.table mid n since' ∧
      Since n since' (numbers ∪ recordedBy cfg mid r (.receive env p)) := by
  rcases receive_cases cfg env r p with ⟨hpass, hkind, hchecked⟩ | ⟨-, hk⟩
  · set d := isDuplicated cfg.lifetimeLocTE r.table (env.now 0) p.mid p.sn with hd
    have hmono : r.table.erased mid ≤ d.2.erased mid := isDuplicated_mono _ _ _ _ _ _
    by_cases hm : mid = p.mid
    · subst hm
      obtain ⟨e, he, hrec⟩ := h
      rcases hchecked with ⟨hdup, -, ht⟩ | ⟨hdup, hres, hk⟩
      · change _ = d.2 at ht
        change d.1 = true at hdup
        rw [ht] at hkept ⊢
        obtain ⟨e', he', hcase⟩ := isDuplicated_spec he hkept
        refine ⟨since, ⟨e', he', ?_⟩, hs.union _⟩
        rcases hcase with ⟨-, -, hdpl⟩ | ⟨-, hfalse, -⟩
        · rw [hdpl]
          exact hrec
        · rw [← hd, hdup] at hfalse
          cases hfalse
      · have hmono' := (hk p.mid).mono
        change d.2.erased p.mid ≤ _ at hmono'
        change d.1 = false at hdup
        have hkept' : d.2.erased p.mid = r.table.erased p.mid := by omega
        obtain ⟨e', he', hcase⟩ := isDuplicated_spec he hkept'
        rcases hcase with ⟨-, htrue, -⟩ | ⟨hnew, -, hdpl⟩
        · rw [← hd, hdup] at htrue
          cases htrue
        -- a number that was counted and recorded
        · have hcounted : p.sn ∈ recordedBy cfg p.mid r (.receive env p) := by
            rw [recordedBy, numberOf, if_pos ⟨rfl, hpass, hkind, hres⟩]
            exact Finset.mem_singleton_self p.sn
          obtain ⟨older, holder⟩ := hrec
          rw [holder] at hnew
          simp only [List.mem_append, List.mem_cons, not_or] at hnew
          have hs' := (hs.union (recordedBy cfg p.mid r (.receive env p))).concat hnew.2.2
            hnew.2.1 (Finset.mem_union_right _ hcounted)
          have hlen := hs'.length_le
          rw [List.length_append, List.length_singleton] at hlen
          have hrec' : Recent (e'.dpl.map DplElement.sn) n (since ++ [p.sn]) := by
            rw [hdpl]
            exact Recent.remember ⟨older, holder⟩ p.sn (by omega)
          have hrem : Remembers d.2 p.mid n (since ++ [p.sn]) := ⟨e', he', hrec'⟩
          exact ⟨_, hrem.keeps (hk p.mid) (by omega), hs'⟩
    -- a packet of another source
    · have hk : Keeps r.table (receive cfg env r p).2.table mid := by
        have hother : Keeps r.table d.2 mid := keeps_isDuplicated_of_ne _ _ _ _ hm
        rcases hchecked with ⟨-, -, ht⟩ | ⟨-, -, hk⟩
        · rw [ht]
          exact hother
        · exact hother.trans (hk mid)
      exact ⟨since, h.keeps hk hkept, hs.union _⟩
  · exact ⟨since, h.keeps (hk mid) hkept, hs.union _⟩

theorem remembers_step {r : Router} {e : TableEvent} {mid : Mid} {n : Nat} {since : List Nat}
    {numbers : Finset Nat} (h : Remembers r.table mid n since) (hs : Since n since numbers)
    (hkept : (tableStep cfg r e).table.erased mid = r.table.erased mid)
    (hroom : ((numbers ∪ recordedBy cfg mid r e).erase n).card < maxDplLen) :
    ∃ since', Remembers (tableStep cfg r e).table mid n since' ∧
      Since n since' (numbers ∪ recordedBy cfg mid r e) := by
  by_cases he : ∃ env p, e = .receive env p
  · obtain ⟨env, p, rfl⟩ := he
    exact remembers_receive cfg env h hs hkept hroom
  · have hk := keeps_tableStep cfg r (fun env p heq => he ⟨env, p, heq⟩) mid
    exact ⟨since, h.keeps hk hkept, hs.union _⟩

/-- Whatever happens between the copies. -/
theorem remembers_runAll {r : Router} (es : List TableEvent) {mid : Mid} {n : Nat}
    {since : List Nat} {numbers : Finset Nat} (h : Remembers r.table mid n since)
    (hs : Since n since numbers) (hkept : (runAll cfg r es).table.erased mid = r.table.erased mid)
    (hroom : ((numbers ∪ recorded (tableStep cfg) (recordedBy cfg mid) r es).erase n).card <
      maxDplLen) :
    ∃ since', Remembers (runAll cfg r es).table mid n since' := by
  induction es generalizing r since numbers with
  | nil => exact ⟨since, h⟩
  | cons e es ih =>
    have hfirst := tableStep_mono cfg r e mid
    have hrest := runAll_mono cfg (tableStep cfg r e) es mid
    change (runAll cfg (tableStep cfg r e) es).table.erased mid = _ at hkept
    rw [recorded, ← Finset.union_assoc] at hroom
    have hroom' : ((numbers ∪ recordedBy cfg mid r e).erase n).card < maxDplLen := by
      refine lt_of_le_of_lt (Finset.card_le_card ?_) hroom
      exact Finset.erase_subset_erase n Finset.subset_union_left
    obtain ⟨since', h', hs'⟩ := remembers_step cfg h hs (by omega) hroom'
    exact ih h' hs' (by omega) hroom

/-! ## The two copies -/

/-- An accepted packet of a source that has an entry is recorded. -/
theorem remembers_accepted {r : Router} {p : Packet} (hto : addressedToUs cfg p = true)
    (hacc : (receive cfg env r p).1 ≠ -1) (hentry : (r.table.entries p.mid).isSome = true)
    (hkept : (receive cfg env r p).2.table.erased p.mid = r.table.erased p.mid) :
    Remembers (receive cfg env r p).2.table p.mid p.sn [] := by
  have hkind : checkedKind cfg p = true := by simp [checkedKind, hto]
  obtain ⟨e, he⟩ := Option.isSome_iff_exists.mp hentry
  rcases receive_cases cfg env r p with ⟨-, -, hchecked⟩ | ⟨hdrop, -⟩
  · rcases hchecked with ⟨-, hdrop, -⟩ | ⟨hdup, -, hk⟩
    · exact absurd hdrop hacc
    · have hmono := isDuplicated_mono cfg.lifetimeLocTE r.table (env.now 0) p.mid p.mid p.sn
      have hmono' := (hk p.mid).mono
      have hmid : (hop p).mid = p.mid := rfl
      have hsn : (hop p).sn = p.sn := rfl
      simp only [hmid, hsn] at hmono' hdup hk
      obtain ⟨e', he', hcase⟩ := isDuplicated_spec he (by omega :
        (isDuplicated cfg.lifetimeLocTE r.table (env.now 0) p.mid p.sn).2.erased p.mid = _)
      rcases hcase with ⟨-, htrue, -⟩ | ⟨-, -, hdpl⟩
      · rw [hdup] at htrue
        cases htrue
      · have hrem : Remembers (isDuplicated cfg.lifetimeLocTE r.table (env.now 0) p.mid p.sn).2
            p.mid p.sn [] := ⟨e', he', by rw [hdpl]; exact recent_remember _ _ _⟩
        exact hrem.keeps (hk p.mid) (by omega)
  · exact absurd (hdrop hkind) hacc

/-- A remembered sequence number is dropped. -/
theorem receive_of_remembers {r : Router} {p : Packet} {since : List Nat}
    (hto : addressedToUs cfg p = true) (h : Remembers r.table p.mid p.sn since)
    (hkept : (receive cfg env r p).2.table.erased p.mid = r.table.erased p.mid) :
    (receive cfg env r p).1 = -1 := by
  have hkind : checkedKind cfg p = true := by simp [checkedKind, hto]
  obtain ⟨e, he, hrec⟩ := h
  rcases receive_cases cfg env r p with ⟨-, -, hchecked⟩ | ⟨hdrop, -⟩
  · rcases hchecked with ⟨-, hdrop, -⟩ | ⟨hdup, -, hk⟩
    · exact hdrop
    · have hmono := isDuplicated_mono cfg.lifetimeLocTE r.table (env.now 0) p.mid p.mid p.sn
      have hmono' := (hk p.mid).mono
      simp only [show (hop p).mid = p.mid from rfl, show (hop p).sn = p.sn from rfl] at hmono' hdup
      obtain ⟨e', -, hcase⟩ := isDuplicated_spec he (by omega :
        (isDuplicated cfg.lifetimeLocTE r.table (env.now 0) p.mid p.sn).2.erased p.mid = _)
      rcases hcase with ⟨-, htrue, -⟩ | ⟨hnew, -, -⟩
      · rw [hdup] at htrue
        cases htrue
      · exact absurd hrec.mem hnew
  · exact hdrop hkind

/-- The source has an entry when the first copy comes, the entry is not found expired up to the
second, and fewer than `MAX_DPL_LEN` other numbers are recorded for it in between. -/
theorem receive_second_copy {r : Router} {env₁ env₂ : Env} {p₁ p₂ : Packet} {es : List TableEvent}
    (hto₁ : addressedToUs cfg p₁ = true) (hto₂ : addressedToUs cfg p₂ = true)
    (haddr : p₂.soPv.gnAddr = p₁.soPv.gnAddr) (hsn : p₂.sn = p₁.sn)
    (hacc : (receive cfg env₁ r p₁).1 ≠ -1)
    (hentry : (r.table.entries p₁.mid).isSome = true)
    (hkept : (receive cfg env₂ (runAll cfg (receive cfg env₁ r p₁).2 es) p₂).2.table.erased
      p₁.mid = r.table.erased p₁.mid)
    (hfew : ((recorded (tableStep cfg) (recordedBy cfg p₁.mid) (receive cfg env₁ r p₁).2 es).erase
      p₁.sn).card < maxDplLen) :
    (receive cfg env₂ (runAll cfg (receive cfg env₁ r p₁).2 es) p₂).1 = -1 := by
  have hmid : p₂.mid = p₁.mid := congrArg GnAddr.mid haddr
  have hmono₁ := receive_mono cfg env₁ r p₁ p₁.mid
  have hmono := runAll_mono cfg (receive cfg env₁ r p₁).2 es p₁.mid
  have hmono₂ := receive_mono cfg env₂ (runAll cfg (receive cfg env₁ r p₁).2 es) p₂ p₁.mid
  have hfirst := remembers_accepted cfg env₁ hto₁ hacc hentry (by omega)
  obtain ⟨since, h⟩ := remembers_runAll cfg es hfirst (.nil p₁.sn ∅) (by omega)
    (by rwa [Finset.empty_union])
  rw [← hmid, ← hsn] at h
  exact receive_of_remembers cfg env₂ hto₂ h (by rw [hmid]; omega)

end SatComm.GeoNet
